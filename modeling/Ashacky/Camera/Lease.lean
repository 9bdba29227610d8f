import Ashacky.Camera.Frames
import Mathlib.Algebra.Group.Nat.Defs

/-!
# Camera — leases

The guest holds at most one frame, and the buffer leaves it alone.

The runs here are those of `CameraService`, whose control queue is serial: `next` is not called
while another call of it waits (`Alone`).

* `leases_step`: the leased and the queued frame are in slots of their own, no store goes to the
  leased slot, and what is queued is newer than all that was handed out.
* `answer_fits`: what `next` answers is the newest frame, later than the acknowledged one, and
  passes the guest's checks.
* `held_run`: the leased frame stays in its slot until its acknowledgement, `begin` or `end`.
* `lease_discipline`: all of it, over every run.
-/

namespace Ashacky.Camera
open Ashacky.Support

/-- `next` is not called while another call waits. -/
def Alone (b : CameraBuffer) (e : Event) : Prop :=
  ∀ requested ack, e = .next requested ack → b.waiting = []

instance (b : CameraBuffer) : (e : Event) → Decidable (Alone b e)
  | .next requested ack =>
      decidable_of_iff (b.waiting = []) ⟨fun h _ _ _ => h, fun h => h requested ack rfl⟩
  | .beginStream | .endStream | .publish _ | .store _ | .unlock | .wake _ _ | .copy _ _ _ _ _
  | .read _ _ => .isTrue nofun

/-- A run with one call of `next` at a time. -/
abbrev SerialRun (F : Format) (uuidString : Nat → String) :
    CameraBuffer → Trace → CameraBuffer → Prop :=
  Steps fun b e o b' => step F uuidString b e = some (o, b') ∧ Alone b e

/-- The call of `next` was let through. -/
def Accepted (uuidString : Nat → String) (call : Call) (b : CameraBuffer) (e : Event) : Prop :=
  e = .next call.requested call.ack ∧ b.accepts uuidString call.requested call.ack

/-- What is acknowledged: nothing, or a frame of the stream that was handed out. -/
def Acknowledged (uuidString : Nat → String) (requested : String) (ack : Int) (b : CameraBuffer) :
    Prop :=
  ack = 0 ∨ ∃ d ∈ b.delivered, uuidString d.generation = requested ∧ ack = d.sequence

structure Leases (F : Format) (uuidString : Nat → String) (b : CameraBuffer) : Prop where
  sound : Sound F b
  bounded : b.sequence ≤ 2147483647
  apart : ∀ f q, b.leased = some f → b.queued = some q → f.slot ≠ q.slot
  publishing : ∀ f, b.lock = some (some f) → f.sequence = b.sequence ∧
    b.leased.map Frame.slot ≠ some f.slot ∧
    ∀ d ∈ b.delivered, b.stream = some d.generation → d.sequence < f.sequence
  leased : ∀ f, b.leased = some f → Shown F b.memory b f ∧
    (b.stores.All fun w => w.cell.slot ≠ f.slot) ∧
    ∃ id, b.stream = some id ∧ ⟨id, f.slot, f.sequence⟩ ∈ b.delivered
  alone : b.waiting.length ≤ 1 ∧ (b.leased ≠ none → b.waiting = [])
  waiting : ∀ call ∈ b.waiting, Acknowledged uuidString call.requested call.ack b
  newer : ∀ d ∈ b.delivered, b.stream = some d.generation → ∀ q, b.queued = some q →
    d.sequence < q.sequence
  newest : ∀ q, b.queued = some q → (∃ f, b.lock = some (some f)) ∨
    ∀ p ∈ b.published, b.stream = some p.generation → p.sequence ≤ q.sequence
  ended : b.lock = some none → b.queued = none
  increasing : b.delivered.Pairwise fun d d' =>
    d.generation = d'.generation → d.sequence < d'.sequence
  limit : ∀ d ∈ b.delivered, d.sequence ≤ 2147483647

section Leases
variable {F : Format} {uuidString : Nat → String} {b b' : CameraBuffer} {e : Event} {o : Output}

theorem leases_initial (F : Format) (uuidString : Nat → String) (memory : Memory) :
    Leases F uuidString (.initial F memory) where
  sound := sound_initial F memory
  bounded := Nat.zero_le _
  apart := nofun
  publishing := nofun
  leased := nofun
  alone := ⟨Nat.zero_le _, fun _ => rfl⟩
  waiting := nofun
  newer := nofun
  newest := nofun
  ended _ := rfl
  increasing := List.Pairwise.nil
  limit := nofun

/-- What a call that is let through acknowledges. -/
theorem acknowledged (L : Leases F uuidString b) {requested : String} {ack : Int}
    (ha : b.accepts uuidString requested ack) : Acknowledged uuidString requested ack b := by
  simp only [CameraBuffer.accepts, Bool.decide_and, Bool.and_eq_true, decide_eq_true_eq] at ha
  obtain ⟨hstream, hack⟩ := ha
  cases hleased : b.leased with
  | none =>
      rw [hleased] at hack
      exact .inl hack
  | some f =>
      rw [hleased] at hack
      obtain ⟨-, -, id, hs, hd⟩ := L.leased f hleased
      rw [hs] at hstream
      exact .inr ⟨_, hd, Option.some.inj hstream, hack⟩

/-- A delivered descriptor of the current stream is not newer than the last sequence. -/
theorem delivered_le (L : Leases F uuidString b) {d : Descriptor} (hd : d ∈ b.delivered)
    (hs : b.stream = some d.generation) : d.sequence ≤ b.sequence := by
  obtain ⟨pixels, -, ⟨-, -, -, hle⟩, -⟩ := L.sound.delivered d hd
  exact hle hs

/-- The frame that is queued is handed out. -/
theorem leases_take (L : Leases F uuidString b) (S' : Sound F b') {id : Nat} {frame : Frame}
    (hl : b.lock = none) (hs : b.stream = some id) (hq : b.queued = some frame)
    {waiting : List Call} (hw : waiting = [])
    (hb : b' = { b with
      waiting := waiting
      queued := none
      leased := some frame
      delivered := b.delivered ++ [⟨id, frame.slot, frame.sequence⟩] }) :
    Leases F uuidString b' := by
  subst hb hw
  obtain ⟨hshown, hslot⟩ := L.sound.queued frame hq
  have hle : frame.sequence ≤ b.sequence := by
    obtain ⟨-, -, -, -, -, -, hle, -⟩ := hshown
    exact hle
  exact
    { sound := S'
      bounded := L.bounded
      apart := nofun
      publishing := fun f hf => by cases hl.symm.trans hf
      leased := by
        rintro f ⟨⟩
        exact ⟨hshown.mono rfl (fun _ h => h) (Nat.le_refl _) fun _ _ => rfl, hslot, id, hs,
          List.mem_append_right _ (List.mem_singleton_self _)⟩
      alone := ⟨Nat.zero_le _, fun _ => rfl⟩
      waiting := nofun
      newer := nofun
      newest := nofun
      ended := fun _ => rfl
      increasing := by
        rw [List.pairwise_append]
        refine ⟨L.increasing, List.pairwise_singleton _ _, fun d hd d' hd' hgen => ?_⟩
        obtain rfl := List.mem_singleton.mp hd'
        exact L.newer d hd (hs.trans (congrArg some hgen.symm)) frame hq
      limit := by
        intro d hd
        rcases List.mem_append.mp hd with hd | hd
        · exact L.limit d hd
        · obtain rfl := List.mem_singleton.mp hd
          exact Nat.le_trans hle L.bounded }

/-- A frame is published: to a slot that nobody uses, and newer than all. -/
theorem leases_publish (L : Leases F uuidString b) {planes : Planes} {generation slot : Nat}
    (hlt : b.sequence < 2147483647) (hfree : b.free = some slot)
    (hb : b' = { b with
      sequence := b.sequence + 1
      stores := publish F slot generation (b.sequence + 1) (planes.pixels F)
      lock := some (some ⟨slot, b.sequence + 1⟩)
      published := b.published ++ [⟨generation, b.sequence + 1, planes.pixels F⟩] })
    (S' : Sound F b') : Leases F uuidString b' := by
  subst hb
  obtain ⟨hslot, hleased, hqueued⟩ := free_eq_some hfree
  exact
    { sound := S'
      bounded := hlt
      apart := L.apart
      publishing := by
        rintro f ⟨⟩
        exact ⟨rfl, hleased, fun d hd hs => Nat.lt_succ_of_le (delivered_le L hd hs)⟩
      leased := by
        intro f hf
        obtain ⟨hshown, -, hd⟩ := L.leased f hf
        refine ⟨hshown.mono rfl (fun p hp => List.mem_append_left _ hp) (Nat.le_succ _)
          fun _ _ => rfl, ?_, hd⟩
        intro g hg w hw hcell
        refine hleased ?_
        rw [hf, ← publish_slot g hg w hw, hcell]
        rfl
      alone := L.alone
      waiting := L.waiting
      newer := L.newer
      newest := fun q hq => .inl ⟨_, rfl⟩
      ended := nofun
      increasing := L.increasing
      limit := L.limit }

theorem leases_store (L : Leases F uuidString b) {k : Nat} {mem : Memory}
    {stores : Stores Cell Value} (hp : Stores.perform b.memory b.stores k = some (mem, stores))
    (S' : Sound F { b with memory := mem, stores := stores }) :
    Leases F uuidString { b with memory := mem, stores := stores } where
  sound := S'
  bounded := L.bounded
  apart := L.apart
  publishing := L.publishing
  leased := by
    intro f hf
    obtain ⟨hshown, hslot, hd⟩ := L.leased f hf
    refine ⟨hshown.mono rfl (fun _ h => h) (Nat.le_refl _) fun c hc => ?_, hslot.perform hp, hd⟩
    exact (hslot.perform_cell hp c).resolve_right fun hne => hne hc
  alone := L.alone
  waiting := L.waiting
  newer := L.newer
  newest := L.newest
  ended := L.ended
  increasing := L.increasing
  limit := L.limit

theorem leases_unlock (L : Leases F uuidString b) {frame : Option Frame}
    (hl : b.lock = some frame)
    (S' : Sound F { b with lock := none, stores := [], queued := frame.or b.queued }) :
    Leases F uuidString { b with lock := none, stores := [], queued := frame.or b.queued } := by
  -- Either the frame just published is queued, or what was queued before the memory was cleared.
  have hqueued : ∀ q, frame.or b.queued = some q → frame = some q ∨ frame = none := by
    intro q hq
    cases frame with
    | none => exact .inr rfl
    | some f => exact .inl hq
  exact
    { sound := S'
      bounded := L.bounded
      apart := by
        intro f q hf hq
        rcases hqueued q hq with rfl | rfl
        · intro h
          refine (L.publishing q hl).2.1 ?_
          rw [hf, ← h]
          rfl
        · exact L.apart f q hf hq
      publishing := nofun
      leased := fun f hf => by
        obtain ⟨hshown, -, hd⟩ := L.leased f hf
        exact ⟨hshown.mono rfl (fun _ h => h) (Nat.le_refl _) fun _ _ => rfl, nofun, hd⟩
      alone := L.alone
      waiting := L.waiting
      newer := by
        intro d hd hs q hq
        rcases hqueued q hq with rfl | rfl
        · exact (L.publishing q hl).2.2 d hd hs
        · exact L.newer d hd hs q hq
      newest := by
        intro q hq
        right
        intro p hp hs
        rcases hqueued q hq with rfl | rfl
        · rw [(L.publishing q hl).1]
          exact (L.sound.published p hp).2 hs
        · have hnone : b.queued = some q := hq
          rw [L.ended hl] at hnone
          cases hnone
      ended := nofun
      increasing := L.increasing
      limit := L.limit }

/-- **Every step of a serial run keeps the leases.** -/
theorem leases_step (L : Leases F uuidString b) (h : Change F uuidString b e o b')
    (ha : Alone b e) : Leases F uuidString b' := by
  -- What the memory holds is `sound_step`; the cases are about who holds a slot and who waits for
  -- one.
  have S' := sound_step L.sound h
  cases h with
  | begins hl =>
      exact
        { sound := S'
          bounded := Nat.zero_le _
          apart := nofun
          publishing := nofun
          leased := nofun
          alone := ⟨L.alone.1, fun h => absurd rfl h⟩
          waiting := L.waiting
          newer := nofun
          newest := nofun
          ended := fun _ => rfl
          increasing := L.increasing
          limit := L.limit }
  | ends hl =>
      exact
        { sound := S'
          bounded := L.bounded
          apart := nofun
          publishing := nofun
          leased := nofun
          alone := ⟨L.alone.1, fun h => absurd rfl h⟩
          waiting := L.waiting
          newer := nofun
          newest := nofun
          ended := fun _ => rfl
          increasing := L.increasing
          limit := L.limit }
  | publishes planes id generation slot hl hs hg hlt hfree =>
      exact leases_publish L hlt hfree rfl S'
  | fails planes hl hlt =>
      exact
        { sound := S'
          bounded := hlt
          apart := L.apart
          publishing := fun f hf => by cases hl.symm.trans hf
          leased := fun f hf => ⟨(L.leased f hf).1.mono rfl (fun _ h => h) (Nat.le_succ _)
            fun _ _ => rfl, (L.leased f hf).2⟩
          alone := L.alone
          waiting := L.waiting
          newer := L.newer
          newest := L.newest
          ended := L.ended
          increasing := L.increasing
          limit := L.limit }
  | stores k memory stores hp => exact leases_store L hp S'
  | unlocks frame hl hdone => exact leases_unlock L hl S'
  | waits requested ack hl hacc hq =>
      have hnone := ha requested ack rfl
      exact
        { sound := S'
          bounded := L.bounded
          apart := nofun
          publishing := fun f hf => by cases hl.symm.trans hf
          leased := nofun
          alone := ⟨by simp [hnone], fun h => absurd rfl h⟩
          waiting := fun call hcall => (List.mem_append.mp hcall).elim (L.waiting call) fun h => by
            obtain rfl := List.mem_singleton.mp h
            exact acknowledged L hacc
          newer := L.newer
          newest := L.newest
          ended := L.ended
          increasing := L.increasing
          limit := L.limit }
  | answers requested ack id frame hl hacc hs hid hq =>
      exact leases_take L S' hl hs hq (ha requested ack rfl) rfl
  | wakes n timeout call id frame hl hn hs hid hq =>
      -- One call waits at most, so that none is left when it wakes.
      refine leases_take L S' hl hs hq ?_ rfl
      have hlt := (List.getElem?_eq_some_iff.mp hn).1
      have := L.alone.1
      rw [← List.length_eq_zero_iff, List.length_eraseIdx_of_lt hlt]
      omega
  | stalls n timeout =>
      exact
        { sound := S'
          bounded := L.bounded
          apart := L.apart
          publishing := L.publishing
          leased := L.leased
          alone := ⟨Nat.le_trans (List.eraseIdx_sublist _ n).length_le L.alone.1, fun h => by
            have := L.alone.2 h
            simp [this]⟩
          waiting := fun call hcall => L.waiting call (List.mem_of_mem_eraseIdx hcall)
          newer := L.newer
          newest := L.newest
          ended := L.ended
          increasing := L.increasing
          limit := L.limit }
  | copies | reads | same =>
      exact ⟨S', L.bounded, L.apart, L.publishing, L.leased, L.alone, L.waiting, L.newer, L.newest,
        L.ended, L.increasing, L.limit⟩

theorem leases_run {memory : Memory} {t : Trace}
    (h : SerialRun F uuidString (.initial F memory) t b) : Leases F uuidString b :=
  h.invariant (I := Leases F uuidString) (fun L h => leases_step L (step_cases h.1) h.2)
    (leases_initial F uuidString memory)

end Leases

/-! ### Answers -/

/-- The answer to a call: the newest frame of the current stream, not handed out before, and one
that the guest accepts. -/
structure Fits (F : Format) (uuidString : Nat → String) (b : CameraBuffer) (requested : String)
    (ack : Int) (r : Reply) : Prop where
  current : b.stream.map uuidString = some requested
  queued : b.queued = some ⟨r.slot, r.sequence⟩
  published : ∃ p ∈ b.published, b.stream = some p.generation ∧ p.sequence = r.sequence
  newest : ∀ p ∈ b.published, b.stream = some p.generation → p.sequence ≤ r.sequence
  undelivered : ∀ d ∈ b.delivered, b.stream = some d.generation → d.sequence < r.sequence
  checked : frameAccepts F requested ack r = true

section Answers
variable {F : Format} {uuidString : Nat → String} {b b' : CameraBuffer} {e : Event} {o : Output}

theorem answer_fits (hinj : Function.Injective uuidString) (L : Leases F uuidString b) {id : Nat}
    {f : Frame} (hl : b.lock = none) (hs : b.stream = some id) (hq : b.queued = some f)
    {ack : Int} (hack : Acknowledged uuidString (uuidString id) ack b) :
    Fits F uuidString b (uuidString id) ack
      ⟨uuidString id, f.slot, f.sequence, F.width, F.height, F.bytes, "nv12"⟩ := by
  obtain ⟨⟨id', pixels, hs', hp, hslot, hone, hle, -⟩, -⟩ := L.sound.queued f hq
  obtain rfl := Option.some.inj (hs.symm.trans hs')
  have hnewer := fun d hd hs => L.newer d hd hs f hq
  refine ⟨by rw [hs]; rfl, hq, ⟨_, hp, hs, rfl⟩, ?_, hnewer, ?_⟩
  · refine (L.newest f hq).resolve_left ?_
    rintro ⟨f', hf'⟩
    cases hl.symm.trans hf'
  · have hlater : ack < f.sequence := by
      rcases hack with rfl | ⟨d, hd, hname, rfl⟩
      · omega
      · have := hnewer d hd (hs.trans (congrArg some (hinj hname).symm))
        omega
    have hbound := Nat.le_trans hle L.bounded
    simp [frameAccepts, hslot, hlater, hbound]

/-- The calls that wait were let through. -/
theorem waiting_accepted {c₀ : CameraBuffer} {t : Trace}
    (h : SerialRun F uuidString c₀ t b) (hnone : c₀.waiting = []) :
    ∀ call ∈ b.waiting, Once (fun b e o b' => step F uuidString b e = some (o, b') ∧ Alone b e)
      (fun _ b e _ _ => Accepted uuidString call b e) c₀ t b := by
  refine (h.invariant_trace (I := fun b t => SerialRun F uuidString c₀ t b ∧ ∀ call ∈ b.waiting,
    Once (fun b e o b' => step F uuidString b e = some (o, b') ∧ Alone b e)
      (fun _ b e _ _ => Accepted uuidString call b e) c₀ t b) ?_ (u := [])
    ⟨.refl _, by rw [hnone]; exact nofun⟩).2
  rintro b t e o b' ⟨hrun, hw⟩ h
  refine ⟨hrun.append (.one h), fun call hcall => ?_⟩
  cases step_cases h.1 with
  | waits requested ack hl hacc hq =>
      rcases List.mem_append.mp hcall with hcall | hcall
      · exact (hw call hcall).later h
      · obtain rfl := List.mem_singleton.mp hcall
        exact Since.now hrun h ⟨rfl, hacc⟩
  | wakes | stalls => exact (hw call (List.mem_of_mem_eraseIdx hcall)).later h
  | begins | ends | publishes | fails | stores | unlocks | answers | copies | reads | same =>
      exact (hw call hcall).later h

end Answers

/-! ### The leased frame -/

/-- The step neither acknowledges the lease nor begins or ends a stream. -/
def Keeps (uuidString : Nat → String) (b : CameraBuffer) (e : Event) : Prop :=
  e ≠ .beginStream ∧ e ≠ .endStream ∧
    ∀ requested ack, e = .next requested ack → b.accepts uuidString requested ack = false

/-- A run with one call of `next` at a time, within a lease. -/
abbrev HeldRun (F : Format) (uuidString : Nat → String) :
    CameraBuffer → Trace → CameraBuffer → Prop :=
  Steps fun b e o b' => step F uuidString b e = some (o, b') ∧ Alone b e ∧ Keeps uuidString b e

/-- The frame is leased to the current stream. -/
def Held (id : Nat) (f : Frame) (b : CameraBuffer) : Prop := b.leased = some f ∧ b.stream = some id

section Held
variable {F : Format} {uuidString : Nat → String} {b b' : CameraBuffer} {e : Event} {o : Output}
  {id : Nat} {f : Frame}

theorem held_step (L : Leases F uuidString b) (hf : Held id f b) (h : Change F uuidString b e o b')
    (hk : Keeps uuidString b e) : Held id f b' := by
  obtain ⟨hbegin, hend, hnext⟩ := hk
  cases h with
  | begins => exact absurd rfl hbegin
  | ends => exact absurd rfl hend
  | waits requested ack hl hacc hq =>
      rw [hnext requested ack rfl] at hacc
      cases hacc
  | answers requested ack id frame hl hacc hs hid hq =>
      rw [hnext requested ack rfl] at hacc
      cases hacc
  | wakes n timeout call id frame hl hn hs hid hq =>
      -- No call waits while a frame is leased.
      rw [L.alone.2 (by rw [hf.1]; exact nofun)] at hn
      cases hn
  | publishes | fails | stores | unlocks | stalls | copies | reads | same => exact hf

theorem held_run {t : Trace} (h : HeldRun F uuidString b t b') (L : Leases F uuidString b)
    (hf : Held id f b) : Leases F uuidString b' ∧ Held id f b' := by
  refine h.invariant (I := fun b => Leases F uuidString b ∧ Held id f b) ?_ ⟨L, hf⟩
  rintro b e o b' ⟨L, hf⟩ ⟨h, ha, hk⟩
  have h := step_cases h
  exact ⟨leases_step L h ha, held_step L hf h hk⟩

/-- What is held is in its slot. -/
theorem held_content (L : Leases F uuidString b) (hf : Held id f b) :
    ∃ p ∈ b.published, p.generation = id ∧ p.sequence = f.sequence ∧
      Content F b.memory ⟨id, f.slot, f.sequence⟩ p.pixels := by
  obtain ⟨⟨id', pixels, hs, hp, -, -, -, hcontent⟩, -⟩ := L.leased f hf.1
  obtain rfl := Option.some.inj (hf.2.symm.trans hs)
  exact ⟨_, hp, rfl, rfl, hcontent⟩

/-- The copy of the frame has not failed. -/
def Sure (id : Nat) (f : Frame) (r : Reader) : Prop :=
  r.slot = f.slot ∧ r.generation = id ∧ r.sequence = f.sequence ∧
    ∀ code, r.phase = .returned code → code = 0

theorem Sure.step {pixels : Pixels} (hc : Content F b.memory ⟨id, f.slot, f.sequence⟩ pixels)
    {r r' : Reader} (hr : Sure id f r) {k : Nat} (h : r.step F b.memory k = some r') :
    Sure id f r' := by
  obtain ⟨hslot, hgen, hseq, -⟩ := hr
  have hsequence : b.memory (.sequence r.slot) = .word r.sequence := by
    rw [hslot, hseq]
    exact hc.1
  have hgeneration : b.memory (.generation r.slot) = .uuid (some r.generation) := by
    rw [hslot, hgen]
    exact hc.2.1
  unfold Reader.step at h
  rw [if_pos hsequence, if_pos hgeneration, if_pos hsequence, if_pos hgeneration] at h
  split at h
  · cases h
    exact ⟨hslot, hgen, hseq, nofun⟩
  · cases h
    exact ⟨hslot, hgen, hseq, nofun⟩
  · cases h
    exact ⟨hslot, hgen, hseq, nofun⟩
  · obtain ⟨i, -, rfl⟩ := Option.map_eq_some_iff.mp h
    exact ⟨hslot, hgen, hseq, nofun⟩
  · cases h
    refine ⟨hslot, hgen, hseq, ?_⟩
    rintro code ⟨⟩
    rfl
  · cases h

theorem sure_run {t : Trace} (h : HeldRun F uuidString b t b') (L : Leases F uuidString b)
    (hf : Held id f b) {n : Nat} {r : Reader} (hr : b.readers[n]? = some r) (hsure : Sure id f r) :
    ∃ r', b'.readers[n]? = some r' ∧ Sure id f r' := by
  refine (h.invariant (I := fun b => (Leases F uuidString b ∧ Held id f b) ∧
    ∃ r', b.readers[n]? = some r' ∧ Sure id f r') ?_ ⟨⟨L, hf⟩, r, hr, hsure⟩).2
  rintro b e o b' ⟨⟨L, hf⟩, r, hr, hsure⟩ h
  refine ⟨held_run (.one h) L hf, ?_⟩
  cases step_cases h.1 with
  | copies =>
      refine ⟨r, ?_, hsure⟩
      rw [List.getElem?_append_left (List.getElem?_eq_some_iff.mp hr).1]
      exact hr
  | reads reader k r₀ r₁ hr₀ hstep =>
      by_cases hn : reader = n
      · subst hn
        obtain rfl := Option.some.inj (hr₀.symm.trans hr)
        obtain ⟨p, -, -, -, hcontent⟩ := held_content L hf
        exact ⟨r₁, List.getElem?_set_self (List.getElem?_eq_some_iff.mp hr).1,
          hsure.step hcontent hstep⟩
      · exact ⟨r, (List.getElem?_set_ne hn).trans hr, hsure⟩
  | begins | ends | publishes | fails | stores | unlocks | waits | answers | wakes | stalls
  | same => exact ⟨r, hr, hsure⟩

end Held

/-! ### The discipline -/

/-- What holds at the end of a run that led to `b`. -/
structure Disciplined (F : Format) (uuidString : Nat → String) (c₀ : CameraBuffer) (t : Trace)
    (b : CameraBuffer) : Prop where
  /-- The leased and the queued frame are in different slots. -/
  apart : ∀ f q, b.leased = some f → b.queued = some q → f.slot ≠ q.slot
  /-- `publish` finds a slot, and nothing is stored to the leased one. -/
  free : b.free.isSome
  untouched : ∀ f, b.leased = some f → b.stores.All fun w => w.cell.slot ≠ f.slot
  /-- A call for another stream, or with another acknowledgement, is refused. -/
  refused : ∀ requested ack o b', step F uuidString b (.next requested ack) = some (o, b') →
    ¬ (b.stream.map uuidString = some requested ∧
      ack = ((b.leased.map fun f => (f.sequence : Int)).getD 0)) →
    o = .reply (.error "Invalid camera stream or acknowledgement") ∧ b' = b
  /-- An answer fits the call, which was let through, and its frame is leased from then on. -/
  answered : ∀ e o b' r, step F uuidString b e = some (o, b') → Alone b e → o = .reply (.ok r) →
    ∃ call : Call, Fits F uuidString b call.requested call.ack r ∧
      b'.leased = some ⟨r.slot, r.sequence⟩ ∧
      (Accepted uuidString call b e ∨ ∃ n timeout, e = .wake n timeout ∧
        b.waiting[n]? = some call ∧
        Once (fun b e o b' => step F uuidString b e = some (o, b') ∧ Alone b e)
          (fun _ b e _ _ => Accepted uuidString call b e) c₀ t b)
  /-- The sequences of a stream's answers increase, up to `2 ^ 31 - 1`. -/
  increasing : b.delivered.Pairwise fun d d' =>
    d.generation = d'.generation → d.sequence < d'.sequence
  limit : ∀ d ∈ b.delivered, d.sequence ≤ 2 ^ 31 - 1
  /-- Until its acknowledgement, `begin` or `end`, the leased frame is in its slot, and a copy of
  it does not fail. -/
  held : ∀ id f, Held id f b → ∀ u b₁, HeldRun F uuidString b u b₁ →
    (∃ p ∈ b₁.published, p.generation = id ∧ p.sequence = f.sequence ∧
      Content F b₁.memory ⟨id, f.slot, f.sequence⟩ p.pixels) ∧
    ∀ destination o b₂, step F uuidString b₁
      (.copy f.slot id f.sequence F.bytes destination) = some (o, b₂) →
      ∀ v b₃ r code, HeldRun F uuidString b₂ v b₃ →
        b₃.readers[b₁.readers.length]? = some r → r.phase = .returned code → code = 0

/-- **Camera leases.**  Every run with one call of `next` at a time keeps the discipline. -/
theorem lease_discipline (F : Format) (uuidString : Nat → String)
    (hinj : Function.Injective uuidString) (memory : Memory) {t : Trace} {b : CameraBuffer}
    (h : SerialRun F uuidString (.initial F memory) t b) :
    Disciplined F uuidString (.initial F memory) t b := by
  have L := leases_run h
  refine
    { apart := L.apart
      free := free_isSome b
      untouched := fun f hf => (L.leased f hf).2.1
      refused := ?_
      answered := ?_
      increasing := L.increasing
      limit := L.limit
      held := ?_ }
  -- A call that is not accepted is refused.
  · intro requested ack o b' hstep hne
    obtain ⟨-, hstep⟩ := Option.ite_none_right_eq_some.mp hstep
    have hacc : ¬ b.accepts uuidString requested ack := by
      simpa [CameraBuffer.accepts] using hne
    rw [CameraBuffer.next, if_neg hacc] at hstep
    cases hstep
    exact ⟨rfl, rfl⟩
  -- Only a call that finds a frame and a call that wakes answer with one.
  · intro e o b' r hstep ha ho
    cases step_cases hstep with
    | answers requested ack id frame hl hacc hs hid hq =>
        subst hid
        obtain rfl := Except.ok.inj (Output.reply.inj ho)
        exact ⟨⟨_, ack⟩, answer_fits hinj L hl hs hq (acknowledged L hacc), rfl, .inl ⟨rfl, hacc⟩⟩
    | wakes n timeout call id frame hl hn hs hid hq =>
        obtain rfl := Except.ok.inj (Output.reply.inj ho)
        have hcall := List.mem_of_getElem? hn
        have hack := L.waiting call hcall
        refine ⟨call, ?_, rfl, .inr ⟨n, timeout, rfl, hn, waiting_accepted h rfl call hcall⟩⟩
        rw [← hid] at hack ⊢
        exact answer_fits hinj L hl hs hq hack
    | same e o ho' =>
        subst ho
        rcases ho' with ho' | ⟨error, ho'⟩ <;> cases ho'
    | begins | ends | publishes | fails | stores | unlocks | waits | stalls | copies | reads =>
        cases ho
  -- While a frame is held, a copy of it cannot fail.
  · intro id f hf u b₁ hu
    obtain ⟨L₁, hf₁⟩ := held_run hu L hf
    refine ⟨held_content L₁ hf₁, ?_⟩
    intro destination o b₂ hcopy v b₃ r code hv hr hcode
    have hkeep : Alone b₁ (.copy f.slot id f.sequence F.bytes destination) ∧
        Keeps uuidString b₁ (.copy f.slot id f.sequence F.bytes destination) := by
      simp [Alone, Keeps]
    obtain ⟨L₂, hf₂⟩ := held_run (.one ⟨hcopy, hkeep⟩) L₁ hf₁
    obtain ⟨⟨-, -, -, -, hslot, hone, -, -⟩, -⟩ := L₁.leased f hf₁.1
    have hreader : b₂.readers[b₁.readers.length]? =
        some (.start F f.slot id f.sequence F.bytes destination) := by
      cases hcopy
      exact List.getElem?_concat_length
    have hsure : Sure id f (.start F f.slot id f.sequence F.bytes destination) := by
      refine ⟨rfl, rfl, rfl, fun code hphase => ?_⟩
      rw [Reader.start, if_neg (by omega)] at hphase
      cases hphase
    obtain ⟨r', hr', hsure'⟩ := sure_run hv L₂ hf₂ hreader hsure
    obtain rfl := Option.some.inj (hr.symm.trans hr')
    exact hsure'.2.2.2 code hcode

/-- A frame is handed out. -/
theorem lease_discipline_sample :
    ∃ t b, SerialRun sampleFormat sampleNames (.initial sampleFormat fun _ => .word 7) t b ∧
      Held 0 ⟨0, 1⟩ b ∧
      Disciplined sampleFormat sampleNames (.initial sampleFormat fun _ => .word 7) t b := by
  have hplay : (play (fun b e => if Alone b e then step sampleFormat sampleNames b e else none)
      (.initial sampleFormat fun _ => .word 7) sampleLease).map (fun r => (r.2.leased, r.2.stream)) =
    some (some ⟨0, 1⟩, some 0) := by decide +kernel
  obtain ⟨⟨t, b⟩, hplayed, hb⟩ := Option.map_eq_some_iff.mp hplay
  obtain ⟨hleased, hstream⟩ := Prod.ext_iff.mp hb
  have hrun : SerialRun sampleFormat sampleNames (.initial sampleFormat fun _ => .word 7) t b :=
    Steps.of_play_guarded hplayed
  have hinj : Function.Injective sampleNames := fun i j h => by
    simpa [sampleNames] using congrArg String.length h
  exact ⟨t, b, hrun, ⟨hleased, hstream⟩, lease_discipline sampleFormat sampleNames hinj _ hrun⟩

end Ashacky.Camera
