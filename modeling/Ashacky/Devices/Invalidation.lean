import Ashacky.Devices.Freshness
import Ashacky.Support.Progress

/-!
# Devices — Invalidation

Every invalidation of the host's devices is followed by a read of them that starts after it.

* `Motion`: what a step does to the timers and to the read that is in flight; `step_motion`.
* `Covered`: what stands for a read that is still to start.
* `Owed`: `notify` was called since the last read was started.
* `no_invalidation_lost`: what is owed is covered in every run, and a run that goes on and keeps the
  host active starts a read after every call of `notify`.
-/

namespace Ashacky.Devices.Bluetooth
open Ashacky.Support
open Ashacky.Control (Json Object)

/-! ### Calls of `notify` -/

/-- `read_host` calls `notify`. -/
def BluetoothEvents.readNotifies (e : BluetoothEvents) (key : Option HostKey) : Bool :=
  some key.isSome ≠ e.mode || key ≠ e.key

/-- The step calls `notify`. -/
def Bridge.notifies (b : Bridge) : Event → Bool
  | .watchStatus _ key => b.events.readNotifies key
  | .statusChanged directory file key => (directory || file) && b.events.readNotifies key
  | .fire .retry _ _ _ => true
  | .fire .reconcile _ _ _ => b.events.active
  | .fire .expiry _ key _ | .fire .watch _ key _ => b.events.readNotifies key
  | .operated => !b.closed && (b.operation = some (some true) || b.refreshAgain)
  | .finished _ => !b.closed && b.refreshAgain
  | _ => false

section Sources
variable {e : BluetoothEvents} {name : Timer}

@[simp] theorem mem_later {name' : Timer} :
    name' ∈ (e.later name).sources ↔ name' ∈ e.sources ∨ (name' = name ∧ e.closed = false) := by
  rw [BluetoothEvents.later, Devices.later]
  split
  · next h =>
      refine ⟨.inl, ?_⟩
      rintro (hmem | ⟨rfl, hopen⟩)
      · exact hmem
      · rcases h with hclosed | hmem
        · rw [hopen] at hclosed
          cases hclosed
        · exact hmem
  · next h =>
      rw [not_or, Bool.not_eq_true] at h
      simp [h.1, or_comm]

@[simp] theorem mem_removeSource {name' : Timer} :
    name' ∈ (e.removeSource name).sources ↔ name' ∈ e.sources ∧ name' ≠ name := by
  simp [BluetoothEvents.removeSource]

@[simp] theorem later_closed : (e.later name).closed = e.closed := rfl

@[simp] theorem removeSource_closed : (e.removeSource name).closed = e.closed := rfl

/-- Reading the channel neither opens nor closes the events. -/
theorem readHost_closed (e : BluetoothEvents) (key : Option HostKey) : (e.readHost key).closed = e.closed := by
  unfold BluetoothEvents.readHost
  dsimp only
  repeat' split
  all_goals rfl

/-- A pending `refresh` stays, and a call of `notify` sets it. -/
theorem readHost_refresh (e : BluetoothEvents) (key : Option HostKey)
    (h : .refresh ∈ e.sources ∨ e.readNotifies key = true ∧ e.closed = false) :
    .refresh ∈ (e.readHost key).sources := by
  have hexpiry : ∀ {e₁ : BluetoothEvents}, .refresh ∈ e₁.sources →
      .refresh ∈ (if key.isSome then e₁.later .expiry else e₁).sources := by
    intro e₁ hmem
    split
    · exact mem_later.mpr (.inl hmem)
    · exact hmem
  have hkeyed : ∀ {e₁ : BluetoothEvents}, .refresh ∈ e₁.sources ∨ key ≠ e₁.key ∧ e₁.closed = false →
      .refresh ∈ (if key ≠ e₁.key then { e₁ with key := key }.notify else e₁).sources := by
    intro e₁ h₁
    split
    · exact mem_later.mpr (h₁.imp_right fun hkey => ⟨rfl, hkey.2⟩)
    · next hkey => exact h₁.resolve_right fun hne => hkey hne.1
  have hstart : .refresh ∈ (e.removeSource .expiry).sources ∨ e.readNotifies key = true ∧ e.closed = false :=
    h.imp_left fun hmem => mem_removeSource.mpr ⟨hmem, by rintro ⟨⟩⟩
  rw [BluetoothEvents.readHost]
  refine hexpiry (hkeyed ?_)
  by_cases hmode : some key.isSome ≠ (e.removeSource .expiry).mode
  · rw [if_pos hmode]
    refine .inl (mem_later.mpr (hstart.imp (fun hmem => ?_) fun hnotifies => ⟨rfl, hnotifies.2⟩))
    exact mem_later.mpr (.inl (mem_removeSource.mpr ⟨hmem, by rintro ⟨⟩⟩))
  · rw [if_neg hmode]
    refine hstart.imp_right fun hnotifies => ⟨?_, hnotifies.2⟩
    have hsame : some key.isSome = e.mode := not_not.mp hmode
    have hother := hnotifies.1
    simp only [BluetoothEvents.readNotifies, hsame, ne_eq, not_true_eq_false, decide_false, Bool.false_or,
      decide_not, Bool.not_eq_eq_eq_not, Bool.not_true, decide_eq_false_iff_not] at hother
    exact hother

/-- A read of the channel that does not notify finds the key it had. -/
theorem readHost_same {key : Option HostKey} (h : e.readNotifies key = false) : key = e.key := by
  simp only [BluetoothEvents.readNotifies, ne_eq, Bool.or_eq_false_iff, decide_eq_false_iff_not,
    not_not] at h
  exact h.2

end Sources

/-! ### What a step does -/

/-- The read in flight is where it was, and a pending `refresh` stays. -/
structure Keeps (b b' : Bridge) : Prop where
  key : b'.events.key = b.events.key
  stopped : b'.events.closed = b.events.closed
  refresh : .refresh ∈ b.events.sources → .refresh ∈ b'.events.sources
  refreshing : b'.refreshing = b.refreshing
  again : b'.refreshAgain = b.refreshAgain
  read : b'.read = b.read
  closed : b'.closed = b.closed

section Keeping
variable {b b₁ b' : Bridge}

theorem Keeps.refl (b : Bridge) : Keeps b b := ⟨rfl, rfl, id, rfl, rfl, rfl, rfl⟩

/-- Steps that keep the read in flight compose. -/
theorem Keeps.trans (h : Keeps b b₁) (h' : Keeps b₁ b') : Keeps b b' where
  key := h'.key.trans h.key
  stopped := h'.stopped.trans h.stopped
  refresh := h'.refresh ∘ h.refresh
  refreshing := h'.refreshing.trans h.refreshing
  again := h'.again.trans h.again
  read := h'.read.trans h.read
  closed := h'.closed.trans h.closed

/-- The channel is as active as it was. -/
theorem Keeps.active (h : Keeps b b') : b'.events.active = b.events.active := by
  rw [BluetoothEvents.active, BluetoothEvents.active, h.key]

/-- Another timer is set. -/
theorem Keeps.later (b : Bridge) (name : Timer) : Keeps b { b with events := b.events.later name } :=
  ⟨rfl, rfl, fun h => mem_later.mpr (.inl h), rfl, rfl, rfl, rfl⟩

/-- Another timer is removed. -/
theorem Keeps.removeSource (b : Bridge) {name : Timer} (h : name ≠ .refresh) :
    Keeps b { b with events := b.events.removeSource name } :=
  ⟨rfl, rfl, fun hmem => mem_removeSource.mpr ⟨hmem, h.symm⟩, rfl, rfl, rfl, rfl⟩

/-- An update keeps the read in flight and a refresh that is pending. -/
theorem update_keeps (b : Bridge) (state : Object) (order : List String) :
    Keeps b (b.update state order).bridge := by
  rw [Bridge.update]
  split
  · exact .refl b
  · next radio _ =>
      dsimp only
      split
      · exact ⟨rfl, rfl, id, rfl, rfl, rfl, rfl⟩
      · next current _ =>
          have hq := Quiet.andThen (c := ⟨{ b with radioState := radio, radioKey := b.events.key },
            [.radio radio], none⟩) ⟨.refl _, by simp⟩ (publish_quiet current order)
          obtain ⟨⟨_, _, _, _, heq⟩, -⟩ := hq
          rw [heq]
          exact ⟨rfl, rfl, id, rfl, rfl, rfl, rfl⟩

theorem fail_keeps (b : Bridge) (order : List String) : Keeps b (b.fail order).2 := by
  refine (update_keeps b Bridge.unavailable order).trans ?_
  rw [Bridge.fail, BluetoothEvents.retry]
  split
  · exact .later _ .retry
  · exact .refl _

theorem take_keeps (b : Bridge) (reply : Except String Object) (order : List String) :
    Keeps b (b.take reply order).2 := by
  cases reply with
  | error e => exact fail_keeps b order
  | ok state =>
      have hu := update_keeps b state order
      rw [Bridge.take]
      split
      · exact hu
      · exact hu.trans (fail_keeps _ order)

theorem discoveryChanged_keeps (b : Bridge) : Keeps b b.discoveryChanged.2 := by
  have hframe : Keeps b
      (if b.discovery = [] then { b with events := b.events.removeSource .discovery } else b) := by
    split
    · exact .removeSource b nofun
    · exact .refl b
  rw [Bridge.discoveryChanged]
  generalize (if b.discovery = [] then
    { b with events := b.events.removeSource .discovery } else b) = b₁ at hframe ⊢
  split
  · exact hframe.trans ⟨rfl, rfl, id, rfl, rfl, rfl, rfl⟩
  · exact hframe

theorem stopDiscovery_keeps (b : Bridge) (sender : String) : Keeps b (b.stopDiscovery sender).2 := by
  have hd := discoveryChanged_keeps { b with discovery := b.discovery.filter (· ≠ sender) }
  exact ⟨hd.key, hd.stopped, hd.refresh, hd.refreshing, hd.again, hd.read, hd.closed⟩

theorem startDiscovery_keeps (b : Bridge) (sender : String) : Keeps b (b.startDiscovery sender).2 := by
  have hd := discoveryChanged_keeps { b with
    discovery := if sender ∈ b.discovery then b.discovery else sender :: b.discovery }
  exact ⟨hd.key, hd.stopped, hd.refresh, hd.refreshing, hd.again, hd.read, hd.closed⟩

theorem scheduleDiscovery_keeps (b : Bridge) : Keeps b b.scheduleDiscovery := by
  rw [Bridge.scheduleDiscovery]
  split
  · exact .later b .discovery
  · exact .refl b

end Keeping

/-- The step is one that leads to the next read: the worker or the main loop goes on with the one in
flight, or, if there is none, `refresh` goes off. -/
def Bridge.due (b : Bridge) : Event → Bool
  | .request | .reply _ | .finished _ => true
  | .fire .refresh _ _ _ => !b.refreshing
  | _ => false

/-- How many such steps there are to the next read. -/
def Bridge.rank (b : Bridge) : Nat :=
  match b.read with
  | some (.waiting true) => 6
  | some .scanning => 5
  | some (.waiting false) => 4
  | some .reading => 3
  | some (.done _) => 2
  | none => 1

/-- What a step does to the timers and the read. -/
inductive Motion (b : Bridge) (e : Event) (b' : Bridge) : Prop where
  | kept (h : Keeps b b') (hquiet : b.notifies e = false) (hdue : b.due e = false)
  | notified (hnotifies : b.notifies e = true) (hrefresh : b.events.closed = false → .refresh ∈ b'.events.sources)
      (hstopped : b'.events.closed = b.events.closed) (hrefreshing : b'.refreshing = b.refreshing)
      (hread : b'.read = b.read) (hclosed : b'.closed = b.closed) (hdue : b.due e = false)
  /-- `refresh`, while a read is in flight. -/
  | marked (hbusy : b.refreshing = true) (hagain : b'.refreshAgain = true)
      (hkey : b'.events.key = b.events.key) (hstopped : b'.events.closed = b.events.closed)
      (hrefreshing : b'.refreshing = b.refreshing) (hread : b'.read = b.read)
      (hclosed : b'.closed = b.closed) (hquiet : b.notifies e = false) (hdue : b.due e = false)
  /-- `refresh`, while the host is not active. -/
  | idle (hactive : b'.events.active = false) (hstopped : b'.events.closed = b.events.closed)
      (hrefreshing : b'.refreshing = b.refreshing) (hread : b'.read = b.read) (hclosed : b'.closed = b.closed)
  | started (hfree : b.refreshing = false) (hbusy : b'.refreshing = true) (hread : b'.read.isSome = true)
      (hstopped : b'.events.closed = b.events.closed) (hclosed : b'.closed = b.closed)
      (hquiet : b.notifies e = false)
  /-- The worker goes on with a read. -/
  | worked (r : Read) (hr : b.read.isSome = true) (hb' : b' = { b with read := some r })
      (hrank : b'.rank < b.rank) (hquiet : b.notifies e = false)
  /-- The main loop takes the result of a read. -/
  | landed (hr : b.read.isSome = true) (hrefreshing : b'.refreshing = false) (hread : b'.read = none)
      (hkey : b'.events.key = b.events.key) (hstopped : b'.events.closed = b.events.closed)
      (hclosed : b'.closed = b.closed) (hnotifies : b.notifies e = true → b.refreshAgain = true)
      (hrefresh : b.events.closed = false → .refresh ∈ b.events.sources ∨ b.refreshAgain = true →
        .refresh ∈ b'.events.sources)
  /-- The bridge is closed. -/
  | shut (hclosed : b'.closed = true) (hstopped : b'.events.closed = true)
      (hbusy : b.refreshing = b.read.isSome → b'.refreshing = b'.read.isSome)

section Steps
variable {b b' : Bridge} {e : Event} {effects : List Effect}

/-- The end of `finished` calls `notify` if the flag is set. -/
theorem settle_spec (b : Bridge) : b.settle.refreshing = b.refreshing ∧ b.settle.read = b.read ∧
    b.settle.events.key = b.events.key ∧ b.settle.events.closed = b.events.closed ∧
    b.settle.closed = b.closed ∧ (b.events.closed = false →
      .refresh ∈ b.events.sources ∨ b.refreshAgain = true → .refresh ∈ b.settle.events.sources) ∧
    (b.refreshAgain = false → Keeps b b.settle) := by
  rw [Bridge.settle]
  cases hagain : b.refreshAgain with
  | true =>
      have hd := scheduleDiscovery_keeps { b with refreshAgain := false, events := b.events.notify }
      exact ⟨hd.refreshing, hd.read, hd.key, hd.stopped, hd.closed,
        fun hopen _ => hd.refresh (mem_later.mpr (.inr ⟨rfl, hopen⟩)), by rintro ⟨⟩⟩
  | false =>
      have hd := scheduleDiscovery_keeps b
      exact ⟨hd.refreshing, hd.read, hd.key, hd.stopped, hd.closed,
        fun _ hrefresh => hd.refresh (hrefresh.resolve_right Bool.false_ne_true), fun _ => hd⟩

/-- An event that reads the channel notifies, or keeps what there is. -/
theorem readHost_motion {b₀ : Bridge} {key : Option HostKey} (hframe : Keeps b b₀)
    (hmode : b₀.events.mode = b.events.mode) (hnotifies : b.notifies e = b.events.readNotifies key)
    (hdue : b.due e = false) : Motion b e (b₀.readHost key).2 := by
  have hsame : b₀.events.readNotifies key = b.events.readNotifies key := by
    rw [BluetoothEvents.readNotifies, BluetoothEvents.readNotifies, hmode, hframe.key]
  have hclosed : (b₀.events.readHost key).closed = b.events.closed :=
    (readHost_closed _ key).trans hframe.stopped
  cases hn : b.events.readNotifies key with
  | true =>
      refine .notified (hnotifies.trans hn) (fun hopen => ?_) hclosed hframe.refreshing hframe.read
        hframe.closed hdue
      exact readHost_refresh b₀.events key (.inr ⟨hsame.trans hn, hframe.stopped.trans hopen⟩)
  | false =>
      have hkey : key = b.events.key := readHost_same hn
      refine .kept ⟨?_, hclosed, fun hmem => ?_, hframe.refreshing, hframe.again, hframe.read,
        hframe.closed⟩ (hnotifies.trans hn) hdue
      · exact (readHost_key b₀.events key).trans hkey
      · exact readHost_refresh b₀.events key (.inl (hframe.refresh hmem))

/-- A refresh starts a read, marks the one in flight, or finds the channel inactive. -/
theorem refresh_motion {b₀ : Bridge} (scan : Bool) (order : List String) (hopen : b₀.closed = false)
    (hkey : b₀.events.key = b.events.key) (hstopped : b₀.events.closed = b.events.closed)
    (hrefreshing : b₀.refreshing = b.refreshing) (hread : b₀.read = b.read) (hclosed : b₀.closed = b.closed)
    (hquiet : b.notifies e = false) (hdue : b.due e = true → b.refreshing = false) :
    Motion b e (b₀.refresh scan order).2 := by
  rw [Bridge.refresh, if_neg (by simp [hopen])]
  by_cases hbusy : b₀.refreshing = true
  · rw [if_pos hbusy]
    have hbusy' : b.refreshing = true := hrefreshing.symm.trans hbusy
    refine .marked hbusy' rfl hkey hstopped hrefreshing hread hclosed hquiet ?_
    by_contra hd
    rw [hdue (Bool.not_eq_false _ ▸ hd)] at hbusy'
    cases hbusy'
  · rw [if_neg hbusy]
    split
    · next hactive =>
        have hu := update_keeps b₀ Bridge.unavailable order
        refine .idle ?_ (hu.stopped.trans hstopped) (hu.refreshing.trans hrefreshing) (hu.read.trans hread)
          (hu.closed.trans hclosed)
        rw [hu.active]
        simpa using hactive
    · exact .started (hrefreshing.symm.trans (Bool.eq_false_iff.mpr hbusy)) rfl rfl hstopped hclosed hquiet

/-- A timer is an allowed motion. -/
theorem fire_motion {name : Timer} {watched : Bool} {key : Option HostKey} {order : List String}
    (hc : b.events.closed = b.closed) :
    Motion b (.fire name watched key order) (b.fire name watched key order).2 := by
  have hsame : (b.events.removeSource name).closed = b.events.closed := rfl
  simp only [Bridge.fire, hsame]
  split
  · next hstopped => exact .shut (hc.symm.trans hstopped) hstopped id
  · next hstopped =>
      rw [Bool.not_eq_true] at hstopped
      have hopen : b.closed = false := hc.symm.trans hstopped
      cases name with
      | refresh =>
          refine refresh_motion false order hopen rfl rfl rfl rfl rfl rfl fun hdue => ?_
          simpa [Bridge.due] using hdue
      | retry =>
          refine .notified rfl (fun _ => ?_) rfl rfl rfl rfl rfl
          exact mem_later.mpr (.inr ⟨rfl, hstopped⟩)
      | reconcile =>
          have hframe : Keeps b { b with events := b.events.removeSource .reconcile } :=
            .removeSource b (by rintro ⟨⟩)
          simp only [BluetoothEvents.reconcile]
          split
          · next hactive =>
              refine .notified hactive (fun _ => ?_) rfl rfl rfl rfl rfl
              exact mem_later.mpr (.inl (mem_later.mpr (.inr ⟨rfl, hstopped⟩)))
          · next hidle =>
              exact .kept (hframe.trans (.later _ .reconcile)) (Bool.eq_false_iff.mpr hidle) rfl
      | expiry => exact readHost_motion (Keeps.removeSource b (by rintro ⟨⟩)) rfl rfl rfl
      | watch =>
          refine readHost_motion ?_ ?_ rfl rfl
          · have hframe : Keeps b { b with events := b.events.removeSource .watch } :=
              .removeSource b (by rintro ⟨⟩)
            split
            · exact hframe
            · exact hframe.trans (.later _ .watch)
          · split <;> rfl
      | discovery => exact refresh_motion true order hopen rfl rfl rfl rfl rfl rfl (by rintro ⟨⟩)

/-- The end of a read is an allowed motion. -/
theorem finished_motion {reply : Except String Object} {order : List String}
    (hc : b.events.closed = b.closed) (hread : b.read = some (.done reply)) :
    Motion b (.finished order) (b.finished reply order).2 := by
  have hr : b.read.isSome = true := by rw [hread]; rfl
  rw [Bridge.finished]
  split
  · next hclosed => exact .shut hclosed (hc.trans hclosed) fun _ => rfl
  · have ht := take_keeps { b with refreshing := false, read := none } reply order
    obtain ⟨hrefreshing, hread', hkey, hstopped, hclosed', hrefresh, -⟩ :=
      settle_spec (Bridge.take { b with refreshing := false, read := none } reply order).2
    refine .landed hr (hrefreshing.trans ht.refreshing) (hread'.trans ht.read) (hkey.trans ht.key)
      (hstopped.trans ht.stopped) (hclosed'.trans ht.closed) (fun hn => (Bool.and_eq_true_iff.mp hn).2)
      fun hopen hpending => ?_
    exact hrefresh (ht.stopped.trans hopen) (hpending.imp ht.refresh ht.again.trans)

/-- The end of an operation is an allowed motion. -/
theorem operated_motion {ok : Bool} (hc : b.events.closed = b.closed)
    (hoperation : b.operation = some (some ok)) : Motion b .operated (b.operated ok) := by
  rw [Bridge.operated]
  split
  · next hclosed => exact .shut hclosed (hc.trans hclosed) id
  · next hclosed =>
      -- The flag the end of `finished` sees; the operation sets it when it went well.
      have hnotifies : b.notifies .operated = (ok || b.refreshAgain) := by
        have hopen : b.closed = false := Bool.eq_false_iff.mpr hclosed
        simp [Bridge.notifies, hopen, hoperation]
      have hsettle {b₁ : Bridge} (hagain : b₁.refreshAgain = (ok || b.refreshAgain))
          (hframe : Keeps b { b₁ with refreshAgain := b.refreshAgain }) : Motion b .operated b₁.settle := by
        obtain ⟨hrefreshing, hread, -, hstopped, hclosed', hrefresh, hkeeps⟩ := settle_spec b₁
        cases hn : b.notifies .operated with
        | true =>
            refine .notified hn (fun hopen => ?_) (hstopped.trans hframe.stopped)
              (hrefreshing.trans hframe.refreshing) (hread.trans hframe.read) (hclosed'.trans hframe.closed) rfl
            exact hrefresh (hframe.stopped.trans hopen) (.inr (hagain.trans (hnotifies.symm.trans hn)))
        | false =>
            have hoff := hnotifies.symm.trans hn
            have hsame : b₁.refreshAgain = b.refreshAgain :=
              hagain.trans (hoff.trans (Bool.or_eq_false_iff.mp hoff).2.symm)
            rw [← hsame] at hframe
            exact .kept (hframe.trans (hkeeps (hagain.trans hoff))) hn rfl
      cases ok with
      | true => exact hsettle rfl ⟨rfl, rfl, id, rfl, rfl, rfl, rfl⟩
      | false => exact hsettle rfl ⟨rfl, rfl, id, rfl, rfl, rfl, rfl⟩

/-- **What a step does to the timers and the read.** -/
theorem step_motion (hc : b.events.closed = b.closed) (h : b.step e = some (effects, b')) :
    Motion b e b' := by
  cases e with
  | watchStatus watched key =>
      obtain ⟨-, h⟩ := Option.ite_none_left_eq_some.mp h
      obtain ⟨rfl, rfl⟩ := Prod.ext_iff.mp (Option.some.inj h)
      refine readHost_motion ?_ ?_ rfl rfl
      · split
        · exact .refl b
        · exact .later b .watch
      · split <;> rfl
  | statusChanged directory file key =>
      obtain ⟨-, h⟩ := Option.ite_none_left_eq_some.mp h
      obtain ⟨rfl, rfl⟩ := Prod.ext_iff.mp (Option.some.inj h)
      have hwatch : Keeps b (if directory then { b with events := b.events.later .watch } else b) := by
        split
        · exact .later b .watch
        · exact .refl b
      simp only [Bridge.statusChanged]
      by_cases hr : directory ∨ file
      · rw [if_pos hr]
        refine readHost_motion hwatch ?_ ?_ rfl
        · split <;> rfl
        · simp [Bridge.notifies, hr]
      · rw [if_neg hr]
        refine .kept hwatch ?_ rfl
        rw [not_or, Bool.not_eq_true, Bool.not_eq_true] at hr
        simp [Bridge.notifies, hr.1, hr.2]
  | fire name watched key order =>
      obtain ⟨-, h⟩ := Option.ite_none_right_eq_some.mp h
      obtain ⟨rfl, rfl⟩ := Prod.ext_iff.mp (Option.some.inj h)
      exact fire_motion hc
  | startDiscovery sender order =>
      obtain ⟨hopen, h⟩ := Option.ite_none_left_eq_some.mp h
      obtain ⟨rfl, rfl⟩ := Prod.ext_iff.mp (Option.some.inj h)
      have hd := startDiscovery_keeps b sender
      exact refresh_motion true order (hd.closed.trans (Bool.eq_false_iff.mpr hopen)) hd.key hd.stopped
        hd.refreshing hd.read hd.closed rfl (by rintro ⟨⟩)
  | stopDiscovery sender =>
      obtain ⟨-, h⟩ := Option.ite_none_left_eq_some.mp h
      obtain ⟨rfl, rfl⟩ := Prod.ext_iff.mp (Option.some.inj h)
      exact .kept (stopDiscovery_keeps b sender) rfl rfl
  | ownerChanged name newOwner =>
      obtain ⟨-, h⟩ := Option.ite_none_left_eq_some.mp h
      obtain ⟨rfl, rfl⟩ := Prod.ext_iff.mp (Option.some.inj h)
      rw [Bridge.ownerChanged]
      split
      · exact .kept (stopDiscovery_keeps b name) rfl rfl
      · exact .kept (.refl b) rfl rfl
  | operate =>
      obtain ⟨-, h⟩ := Option.ite_none_left_eq_some.mp h
      cases h
      exact .kept ⟨rfl, rfl, id, rfl, rfl, rfl, rfl⟩ rfl rfl
  | operationEnds ok =>
      obtain ⟨-, h⟩ := Option.ite_none_right_eq_some.mp h
      cases h
      exact .kept ⟨rfl, rfl, id, rfl, rfl, rfl, rfl⟩ rfl rfl
  | operated =>
      simp only [Bridge.step] at h
      split at h
      · next ok hoperation =>
          cases h
          exact operated_motion hc hoperation
      · cases h
  | request =>
      simp only [Bridge.step] at h
      split at h
      · next hread =>
          cases h
          -- What the worker does brings the read one step nearer to its end.
          exact .worked _ (by rw [hread]; rfl) rfl (by simp [Bridge.rank, hread]) rfl
      · next hread =>
          cases h
          exact .worked _ (by rw [hread]; rfl) rfl (by simp [Bridge.rank, hread]) rfl
      · cases h
  | reply result =>
      simp only [Bridge.step] at h
      split at h
      · next hread =>
          cases h
          exact .worked _ (by rw [hread]; rfl) rfl (by simp [Bridge.rank, hread]) rfl
      · next hread =>
          cases h
          exact .worked _ (by rw [hread]; rfl) rfl (by simp [Bridge.rank, hread]) rfl
      · next hread =>
          cases h
          exact .worked _ (by rw [hread]; rfl) rfl (by simp [Bridge.rank, hread]) rfl
      · cases h
  | finished order =>
      simp only [Bridge.step] at h
      split at h
      · next reply hread =>
          obtain ⟨rfl, rfl⟩ := Prod.ext_iff.mp (Option.some.inj h)
          exact finished_motion hc hread
      · cases h
  | close =>
      cases h
      exact .shut rfl rfl id

end Steps

/-! ### Reads that are owed -/

/-- A step between the two starts a read. -/
def Bridge.starts (b b' : Bridge) : Bool := !b.refreshing && b'.refreshing

/-- The flags say what they are to say. -/
structure Consistent (b : Bridge) : Prop where
  stopped : b.events.closed = b.closed
  refreshing : b.refreshing = b.read.isSome

/-- Something stands for a read that is still to start. -/
def Covered (b : Bridge) : Prop :=
  b.closed = false → b.events.active = true →
    .refresh ∈ b.events.sources ∨ b.refreshing = true ∧ b.refreshAgain = true

section Owed
variable {b b' : Bridge} {e : Event} {effects : List Effect}

/-- No motion lets the flags and the read fall apart. -/
theorem Motion.consistent (h : Motion b e b') (hc : Consistent b) : Consistent b' := by
  cases h with
  | kept h => exact ⟨h.stopped.trans (hc.stopped.trans h.closed.symm),
      h.refreshing.trans (hc.refreshing.trans (congrArg Option.isSome h.read.symm))⟩
  | notified _ _ hstopped hrefreshing hread hclosed
  | marked _ _ _ hstopped hrefreshing hread hclosed
  | idle _ hstopped hrefreshing hread hclosed =>
      exact ⟨hstopped.trans (hc.stopped.trans hclosed.symm),
        hrefreshing.trans (hc.refreshing.trans (congrArg Option.isSome hread.symm))⟩
  | started _ hbusy hread hstopped hclosed =>
      exact ⟨hstopped.trans (hc.stopped.trans hclosed.symm), hbusy.trans hread.symm⟩
  | worked r hr hb' =>
      subst hb'
      exact ⟨hc.stopped, hc.refreshing.trans hr⟩
  | landed _ hrefreshing hread _ hstopped hclosed =>
      exact ⟨hstopped.trans (hc.stopped.trans hclosed.symm), by rw [hrefreshing, hread]; rfl⟩
  | shut hclosed hstopped hbusy => exact ⟨hstopped.trans hclosed.symm, hbusy hc.refreshing⟩

/-- A read has started when one is in flight that was not. -/
theorem starts_of (hfree : b.refreshing = false) (hbusy : b'.refreshing = true) : b.starts b' = true := by
  rw [Bridge.starts, hfree, hbusy]
  rfl

/-- A call of `notify` is covered, and what is covered stays so until a read is started. -/
theorem Motion.covered (h : Motion b e b') (hc : Consistent b)
    (hor : b.notifies e = true ∨ Covered b ∧ b.starts b' = false) : Covered b' := by
  intro hopen' hactive'
  cases h with
  | kept h hquiet =>
      rw [hquiet] at hor
      obtain ⟨hcovered, -⟩ := hor.resolve_left Bool.false_ne_true
      exact (hcovered (h.closed.symm.trans hopen') (h.active.symm.trans hactive')).imp h.refresh
        fun hagain => ⟨h.refreshing.trans hagain.1, h.again.trans hagain.2⟩
  | notified _ hrefresh _ _ _ hclosed =>
      exact .inl (hrefresh (hc.stopped.trans (hclosed.symm.trans hopen')))
  | marked hbusy hagain _ _ hrefreshing => exact .inr ⟨hrefreshing.trans hbusy, hagain⟩
  | idle hactive =>
      rw [hactive] at hactive'
      cases hactive'
  | started hfree hbusy _ _ _ hquiet =>
      rw [hquiet] at hor
      obtain ⟨-, hno⟩ := hor.resolve_left Bool.false_ne_true
      rw [starts_of hfree hbusy] at hno
      cases hno
  | worked r hr hb' _ hquiet =>
      rw [hquiet] at hor
      subst hb'
      exact (hor.resolve_left Bool.false_ne_true).1 hopen' hactive'
  | landed _ _ _ hkey _ hclosed hnotifies hrefresh =>
      have hopen := hclosed.symm.trans hopen'
      have hactive : b.events.active = true := by rwa [BluetoothEvents.active, ← hkey]
      refine .inl (hrefresh (hc.stopped.trans hopen) ?_)
      rcases hor with hn | ⟨hcovered, -⟩
      · exact .inr (hnotifies hn)
      · exact (hcovered hopen hactive).imp_right And.right
  | shut hclosed =>
      rw [hclosed] at hopen'
      cases hopen'

/-- The distance to the next read depends on the read in flight. -/
theorem rank_of_read (h : b'.read = b.read) : b'.rank = b.rank := by
  rw [Bridge.rank, Bridge.rank, h]

/-- A read in flight is further away than the next one. -/
theorem one_lt_rank (h : b.read.isSome = true) : 1 < b.rank := by
  obtain ⟨r, hr⟩ := Option.isSome_iff_exists.mp h
  rw [Bridge.rank, hr]
  rcases r with (_ | _) | _ | _ | _ <;> simp

/-- Until a read is started, none gets further away, and the steps that lead to it bring it closer. -/
theorem Motion.rank (h : Motion b e b') (hno : b.starts b' = false) (hopen' : b'.closed = false)
    (hactive' : b'.events.active = true) : b'.rank ≤ b.rank ∧ (b.due e = true → b'.rank < b.rank) := by
  have hsame (hread : b'.read = b.read) (hdue : b.due e = false) :
      b'.rank ≤ b.rank ∧ (b.due e = true → b'.rank < b.rank) :=
    ⟨(rank_of_read hread).le, fun hd => absurd (hdue.symm.trans hd) Bool.false_ne_true⟩
  cases h with
  | kept h _ hdue => exact hsame h.read hdue
  | notified _ _ _ _ hread _ hdue => exact hsame hread hdue
  | marked _ _ _ _ _ hread _ _ hdue => exact hsame hread hdue
  | idle hactive =>
      rw [hactive] at hactive'
      cases hactive'
  | started hfree hbusy =>
      rw [starts_of hfree hbusy] at hno
      cases hno
  | worked r hr hb' hrank => exact ⟨hrank.le, fun _ => hrank⟩
  | landed hr _ hread =>
      have hlt : b'.rank < b.rank := by
        rw [Bridge.rank, hread]
        exact one_lt_rank hr
      exact ⟨hlt.le, fun _ => hlt⟩
  | shut hclosed =>
      rw [hclosed] at hopen'
      cases hopen'

/-- What is covered has a next step to its read. -/
theorem Covered.enabled (h : Covered b) (hc : Consistent b) (hopen : b.closed = false)
    (hactive : b.events.active = true) :
    ∃ e effects b', b.due e = true ∧ b.step e = some (effects, b') := by
  rcases hread : b.read with _ | ((_ | _) | _ | _ | reply)
  · have hfree : b.refreshing = false := by rw [hc.refreshing, hread]; rfl
    have hrefresh : .refresh ∈ b.events.sources :=
      (h hopen hactive).resolve_right fun hagain => absurd (hfree.symm.trans hagain.1) Bool.false_ne_true
    exact ⟨.fire .refresh true none [], _, _, by rw [Bridge.due, hfree]; rfl, if_pos hrefresh⟩
  · exact ⟨.request, _, _, rfl, by rw [Bridge.step, hread]⟩
  · exact ⟨.request, _, _, rfl, by rw [Bridge.step, hread]⟩
  · exact ⟨.reply (.error "unreachable"), _, _, rfl, by simp only [Bridge.step, hread]; rfl⟩
  · exact ⟨.reply (.error "unreachable"), _, _, rfl, by simp only [Bridge.step, hread]; rfl⟩
  · exact ⟨.finished [], _, _, rfl, by rw [Bridge.step, hread]⟩

end Owed

/-- `notify` was called since the last read was started. -/
def Owed (b₀ : Bridge) : List (Event × List Effect) → Bridge → Prop :=
  Since (fun b e effects b' => b.step e = some (effects, b')) (fun _ b e _ _ => b.notifies e = true)
    (fun b _ _ b' => b.starts b' = false) b₀

/-- An update keeps the flags consistent. -/
theorem update_consistent {b : Bridge} (h : Consistent b) (state : Object) (order : List String) :
    Consistent (b.update state order).bridge := by
  have hu := update_keeps b state order
  exact ⟨hu.stopped.trans (h.stopped.trans hu.closed.symm),
    hu.refreshing.trans (h.refreshing.trans (congrArg Option.isSome hu.read.symm))⟩

/-- The flags are consistent at the start. -/
theorem start_consistent (reply : Except String Object) (order : List String) :
    Consistent (.start reply order) := by
  have hnew : Consistent .new := ⟨rfl, rfl⟩
  cases reply with
  | error text => exact update_consistent hnew _ order
  | ok state =>
      simp only [Bridge.start]
      split
      · exact update_consistent hnew _ order
      · exact update_consistent (update_consistent hnew _ order) _ order

/-- The flags are consistent in every reachable state. -/
theorem run_consistent {b₀ b : Bridge} {t : List (Event × List Effect)} (h : Bridge.Run b₀ t b)
    (h₀ : Consistent b₀) : Consistent b :=
  Steps.invariant (I := Consistent) (fun hc hstep => (step_motion hc.stopped hstep).consistent hc) h h₀

/-- While a read is owed, something stands for it. -/
theorem Owed.covered {b₀ b : Bridge} {t : List (Event × List Effect)} (h : Owed b₀ t b)
    (h₀ : Consistent b₀) : Consistent b ∧ Covered b := by
  obtain ⟨u, e, effects, v, m, m', rfl, hu, hstep, hnotifies, hv⟩ := h
  have hc := run_consistent hu h₀
  have hm := step_motion hc.stopped hstep
  refine hv.invariant (I := fun b => Consistent b ∧ Covered b) (fun hI hs => ?_)
    ⟨hm.consistent hc, hm.covered hc (.inl hnotifies)⟩
  have hmotion := step_motion hI.1.stopped hs.1
  exact ⟨hmotion.consistent hI.1, hmotion.covered hI.1 (.inr ⟨hI.2, hs.2⟩)⟩

/-- **No invalidation is lost.**  When `notify` was called since the last read was started, a timer is
pending that leads to the next one, or a read is in flight and the flag is set, and some step to the
next read can be taken; and a run that goes on, in which such steps are taken when they can be, starts
a read after every call of `notify`, if from then on it is not closed and the host is active. -/
theorem no_invalidation_lost (reply : Except String Object) (order : List String) :
    (∀ {t b}, Bridge.Run (.start reply order) t b → Owed (.start reply order) t b →
      b.closed = false → b.events.active = true →
      (.refresh ∈ b.events.sources ∨ .retry ∈ b.events.sources ∨
        b.refreshing = true ∧ b.refreshAgain = true) ∧
      ∃ e effects b', b.due e = true ∧ b.step e = some (effects, b')) ∧
    ∀ (r : Endless fun b e effects b' => Bridge.step b e = some (effects, b')) (n : ℕ),
      r.state 0 = .start reply order → r.Fair (fun b e => b.due e = true) →
      (r.state n).notifies (r.event n) = true →
      (∀ m, n < m → (r.state m).closed = false ∧ (r.state m).events.active = true) →
      ∃ m, n < m ∧ (r.state m).starts (r.state (m + 1)) = true := by
  constructor
  · intro t b _ howed hopen hactive
    obtain ⟨hc, hcovered⟩ := howed.covered (start_consistent reply order)
    exact ⟨(hcovered hopen hactive).imp_right .inr, hcovered.enabled hc hopen hactive⟩
  · intro r n hstart hfair hnotifies hgood
    obtain ⟨t, ht⟩ := r.steps n
    have hc : Consistent (r.state n) := run_consistent (hstart ▸ ht) (start_consistent reply order)
    obtain ⟨effects, hstep⟩ := r.taken n
    have hm := step_motion hc.stopped hstep
    have hkeep {m : ℕ} (hI : Consistent (r.state m) ∧ Covered (r.state m))
        (hno : (r.state m).starts (r.state (m + 1)) = false) :
        Motion (r.state m) (r.event m) (r.state (m + 1)) ∧
          Consistent (r.state (m + 1)) ∧ Covered (r.state (m + 1)) := by
      obtain ⟨effects, hstep⟩ := r.taken m
      have hmotion := step_motion hI.1.stopped hstep
      exact ⟨hmotion, hmotion.consistent hI.1, hmotion.covered hI.1 (.inr ⟨hI.2, hno⟩)⟩
    have hrank {m : ℕ} (hnm : n + 1 ≤ m) (hmotion : Motion (r.state m) (r.event m) (r.state (m + 1)))
        (hno : (r.state m).starts (r.state (m + 1)) = false) :=
      hmotion.rank hno (hgood (m + 1) (Nat.lt_succ_of_lt hnm)).1 (hgood (m + 1) (Nat.lt_succ_of_lt hnm)).2
    refine Endless.reaches (I := fun b => Consistent b ∧ Covered b) Bridge.rank hfair
      (fun m hnm hI hno => ?_) (fun m hnm hI hno hdue => ?_) (fun m hnm hI => ?_)
      ⟨hm.consistent hc, hm.covered hc (.inl hnotifies)⟩
    · obtain ⟨hmotion, hI'⟩ := hkeep hI (Bool.eq_false_iff.mpr hno)
      exact ⟨hI', (hrank hnm hmotion (Bool.eq_false_iff.mpr hno)).1⟩
    · obtain ⟨hmotion, -⟩ := hkeep hI (Bool.eq_false_iff.mpr hno)
      exact (hrank hnm hmotion (Bool.eq_false_iff.mpr hno)).2 hdue
    · exact hI.2.enabled hI.1 (hgood m hnm).1 (hgood m hnm).2

deriving instance DecidableEq for Read, Bridge

/-- A read that fails, and the next one. -/
def failingRead : List Event :=
  [.request, .reply (.error "unreachable"), .finished [], .fire .retry true none [],
    .fire .refresh true none []]

/-- The failing reads go on for ever. -/
theorem exists_failing_reads : ∃ r : Endless fun b e effects b' => Bridge.step b e = some (effects, b'),
    r.state 0 = sampleStart ∧ r.event 0 = .watchStatus true none ∧
      (∀ m, 0 < m → (r.state m).closed = false ∧ (r.state m).events.active = true) ∧
      ∀ n, ∃ m, n ≤ m ∧ r.event m = .request := by
  have hplay : ((sampleStart.step (.watchStatus true none)).bind fun x =>
      (x.2.step (.fire .refresh true none [])).map fun y =>
        (decide (Endless.after Bridge.step y.2 failingRead = some y.2),
          x.2.closed, x.2.events.active, (List.range 5).all fun k =>
            (Endless.after Bridge.step y.2 (failingRead.take k)).all fun b =>
              !b.closed && b.events.active)) = some (true, false, true, true) := by
    decide +kernel
  obtain ⟨⟨effects₁, b₁⟩, h₁, hplay⟩ := Option.bind_eq_some_iff.mp hplay
  obtain ⟨⟨effects₂, b₂⟩, h₂, hplay⟩ := Option.map_eq_some_iff.mp hplay
  simp only [Prod.mk.injEq, decide_eq_true_eq] at hplay
  obtain ⟨hcycle, hclosed₁, hactive₁, hall⟩ := hplay
  have hne : failingRead ≠ [] := List.cons_ne_nil _ _
  obtain ⟨r, hr⟩ := Endless.exists_lasso hne hcycle
  have hr₀ : r.state 0 = b₂ := (Option.some.inj (hr 0).2).symm
  refine ⟨(r.cons ⟨effects₂, hr₀ ▸ h₂⟩).cons ⟨effects₁, h₁⟩, rfl, rfl, fun m hm => ?_, fun n => ?_⟩
  · rcases m with _ | _ | m
    · cases hm
    · exact ⟨hclosed₁, hactive₁⟩
    · have hmod : m % failingRead.length < 5 := Nat.mod_lt m (by decide)
      have hk := List.all_eq_true.mp hall _ (List.mem_range.mpr hmod)
      rw [(hr m).2] at hk
      have hgood : (r.state m).closed = false ∧ (r.state m).events.active = true := by simpa using hk
      exact hgood
  · refine ⟨5 * n + 2, by omega, ?_⟩
    have he := (hr (5 * n)).1
    rw [show failingRead.length = 5 from rfl, Nat.mul_mod_right] at he
    exact (Option.some.inj he).symm

/-- In the sample a read is owed and its timer is set, and an endless run from there starts it. -/
theorem no_invalidation_lost_sample :
    (∃ t b, Bridge.Run sampleStart t b ∧ Owed sampleStart t b ∧ b.closed = false ∧
      b.events.active = true ∧
      (.refresh ∈ b.events.sources ∨ .retry ∈ b.events.sources ∨
        b.refreshing = true ∧ b.refreshAgain = true) ∧
      ∃ e effects b', b.due e = true ∧ b.step e = some (effects, b')) ∧
    ∃ r : Endless fun b e effects b' => Bridge.step b e = some (effects, b'),
      r.state 0 = sampleStart ∧ (r.state 0).notifies (r.event 0) = true ∧
        ∃ m, 0 < m ∧ (r.state m).starts (r.state (m + 1)) = true := by
  obtain ⟨r, hstart, hfirst, hgood, hrequests⟩ := exists_failing_reads
  have hnotifies : (r.state 0).notifies (r.event 0) = true := by
    rw [hstart, hfirst]
    decide +kernel
  refine ⟨?_, r, hstart, hnotifies, ?_⟩
  · obtain ⟨effects, hstep⟩ := r.taken 0
    have hrun : Bridge.Run sampleStart [] (r.state 0) := hstart ▸ .refl _
    have howed : Owed sampleStart [(r.event 0, effects)] (r.state 1) := .now hrun hstep hnotifies
    exact ⟨_, _, hrun.append (.one hstep), howed, (hgood 1 Nat.one_pos).1, (hgood 1 Nat.one_pos).2,
      (no_invalidation_lost (.error "unreachable") []).1 (hrun.append (.one hstep)) howed
        (hgood 1 Nat.one_pos).1 (hgood 1 Nat.one_pos).2⟩
  · refine (no_invalidation_lost (.error "unreachable") []).2 r 0 hstart (fun n _ => ?_) hnotifies hgood
    obtain ⟨m, hm, hrequest⟩ := hrequests n
    refine ⟨m, hm, ?_⟩
    rw [hrequest]
    rfl

end Ashacky.Devices.Bluetooth
