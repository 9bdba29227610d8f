import Ashacky.Camera.Buffer

/-!
# Camera — frames

A copy of a frame is the frame, or nothing.

* `step_cases`: what a step does.
* `track_step`: the slot of a descriptor that was handed out holds its frame until a store to the
  slot; the first such store takes the sequence away, and it comes back only after the generation
  has gone for good.
* `sound_step`: what the buffer keeps to: the memory comes to the current stream's generations,
  what is queued is in its slot, and every descriptor is tracked.
* `reader_step`: what a reader of a tracked descriptor has copied so far.
* `copy_exact`: a copy that succeeds is the frame that was published under the descriptor's
  generation and sequence; one that fails leaves its destination as it was, or zero.
-/

namespace Ashacky.Camera
open Ashacky.Support

/-! ### Steps -/

/-- Two slots at most are taken. -/
theorem free_isSome (b : CameraBuffer) : b.free.isSome := by
  rw [CameraBuffer.free, List.find?_isSome]
  generalize b.leased.map Frame.slot = l
  generalize b.queued.map Frame.slot = q
  by_contra hno
  have htaken : ∀ slot < 3, some slot ≠ l → some slot = q := by
    intro slot hslot hne
    by_contra hne'
    exact hno ⟨slot, List.mem_range.mpr hslot, decide_eq_true ⟨hne, hne'⟩⟩
  have h₀ := htaken 0 (by decide)
  have h₁ := htaken 1 (by decide)
  have h₂ := htaken 2 (by decide)
  grind

/-- The slot that `publish` chooses. -/
theorem free_eq_some {b : CameraBuffer} {slot : Nat} (h : b.free = some slot) :
    slot < 3 ∧ b.leased.map Frame.slot ≠ some slot ∧ b.queued.map Frame.slot ≠ some slot := by
  have hmem := List.mem_of_find?_eq_some h
  have hfree := List.find?_some h
  rw [decide_eq_true_eq] at hfree
  exact ⟨List.mem_range.mp hmem, hfree.1.symm, hfree.2.symm⟩

section Steps
variable (F : Format) (uuidString : Nat → String)

/-- What a step can be. -/
inductive Change (b : CameraBuffer) : Event → Output → CameraBuffer → Prop where
  | begins (hl : b.lock = none) :
      Change b .beginStream (b.beginStream F uuidString).1 (b.beginStream F uuidString).2
  | ends (hl : b.lock = none) : Change b .endStream .quiet (b.endStream F).2
  | publishes (planes : Planes) (id generation slot : Nat) (hl : b.lock = none)
      (hs : b.stream = some id) (hg : b.generation = some generation)
      (hlt : b.sequence < 2147483647) (hfree : b.free = some slot) :
      Change b (.publish planes) .quiet { b with
        sequence := b.sequence + 1
        stores := publish F slot generation (b.sequence + 1) (planes.pixels F)
        lock := some (some ⟨slot, b.sequence + 1⟩)
        published := b.published ++ [⟨generation, b.sequence + 1, planes.pixels F⟩] }
  | fails (planes : Planes) (hl : b.lock = none) (hlt : b.sequence < 2147483647) :
      Change b (.publish planes) .quiet { b with sequence := b.sequence + 1 }
  | stores (k : Nat) (memory : Memory) (stores : Stores Cell Value)
      (h : Stores.perform b.memory b.stores k = some (memory, stores)) :
      Change b (.store k) .quiet { b with memory := memory, stores := stores }
  | unlocks (frame : Option Frame) (hl : b.lock = some frame)
      (hdone : b.stores.All fun _ => False) :
      Change b .unlock .quiet { b with lock := none, stores := [], queued := frame.or b.queued }
  | waits (requested : String) (ack : Int) (hl : b.lock = none)
      (ha : b.accepts uuidString requested ack) (hq : b.queued = none) :
      Change b (.next requested ack) .quiet
        { b with leased := none, waiting := b.waiting ++ [⟨requested, ack⟩] }
  | answers (requested : String) (ack : Int) (id : Nat) (frame : Frame) (hl : b.lock = none)
      (ha : b.accepts uuidString requested ack) (hs : b.stream = some id)
      (hid : uuidString id = requested) (hq : b.queued = some frame) :
      Change b (.next requested ack) (.reply (.ok
        ⟨requested, frame.slot, frame.sequence, F.width, F.height, F.bytes, "nv12"⟩)) { b with
          queued := none
          leased := some frame
          delivered := b.delivered ++ [⟨id, frame.slot, frame.sequence⟩] }
  | wakes (n : Nat) (timeout : Bool) (call : Call) (id : Nat) (frame : Frame) (hl : b.lock = none)
      (hn : b.waiting[n]? = some call) (hs : b.stream = some id)
      (hid : uuidString id = call.requested) (hq : b.queued = some frame) :
      Change b (.wake n timeout) (.reply (.ok
        ⟨call.requested, frame.slot, frame.sequence, F.width, F.height, F.bytes, "nv12"⟩)) { b with
          waiting := b.waiting.eraseIdx n
          queued := none
          leased := some frame
          delivered := b.delivered ++ [⟨id, frame.slot, frame.sequence⟩] }
  | stalls (n : Nat) (timeout : Bool) :
      Change b (.wake n timeout) (.reply (.error "Camera stream stopped or stalled"))
        { b with waiting := b.waiting.eraseIdx n }
  | copies (slot generation sequence bytes : Nat) (destination : Pixels) :
      Change b (.copy slot generation sequence bytes destination) .quiet { b with
        readers := b.readers ++ [.start F slot generation sequence bytes destination] }
  | reads (reader k : Nat) (r r' : Reader) (hr : b.readers[reader]? = some r)
      (h : r.step F b.memory k = some r') :
      Change b (.read reader k) .quiet { b with readers := b.readers.set reader r' }
  | same (e : Event) (o : Output) (ho : o = .quiet ∨ ∃ error, o = .reply (.error error))
      (he : ∀ requested ack, e = .next requested ack → b.accepts uuidString requested ack = false) :
      Change b e o b

variable {F uuidString} {b b' : CameraBuffer} {e : Event} {o : Output}

/-- Taking a frame hands out the one that is queued, or refuses. -/
theorem take_change {requested : String} (h : b.take F uuidString requested = (o, b')) :
    (∃ id frame, b.stream = some id ∧ uuidString id = requested ∧ b.queued = some frame ∧
      o = .reply (.ok
        ⟨requested, frame.slot, frame.sequence, F.width, F.height, F.bytes, "nv12"⟩) ∧
      b' = { b with
        queued := none
        leased := some frame
        delivered := b.delivered ++ [⟨id, frame.slot, frame.sequence⟩] }) ∨
    o = .reply (.error "Camera stream stopped or stalled") ∧ b' = b ∧
      (b.queued = none ∨ b.stream.map uuidString ≠ some requested) := by
  unfold CameraBuffer.take at h
  split at h
  · rename_i id frame hs hq
    split at h
    · rename_i hid
      cases h
      exact .inl ⟨id, frame, hs, hid, hq, rfl, rfl⟩
    · rename_i hid
      cases h
      exact .inr ⟨rfl, rfl, .inr (by simpa [hs] using hid)⟩
  · rename_i hnone
    cases h
    refine .inr ⟨rfl, rfl, ?_⟩
    cases hs : b.stream with
    | none => simp
    | some id =>
        cases hq : b.queued with
        | none => simp
        | some frame => exact absurd hq (hnone id frame hs)

/-- Publishing is an allowed change, when the lock is free. -/
theorem publish_change {planes : Planes} (hl : b.lock = none) :
    Change F uuidString b (.publish planes) (b.publish F planes).1 (b.publish F planes).2 := by
  unfold CameraBuffer.publish
  split
  · rename_i id generation hs hg
    split
    · rename_i hlt
      split
      · rename_i slot hfree
        dsimp only
        split
        · exact .publishes planes id generation slot hl hs hg hlt hfree
        · exact .fails planes hl hlt
      · rename_i hfree
        have := free_isSome b
        rw [hfree] at this
        cases this
    · exact .same _ _ (.inl rfl) nofun
  · exact .same _ _ (.inl rfl) nofun

theorem next_change {requested : String} {ack : Int} (hl : b.lock = none) :
    Change F uuidString b (.next requested ack) (b.next F uuidString requested ack).1
      (b.next F uuidString requested ack).2 := by
  unfold CameraBuffer.next
  split
  · rename_i ha
    dsimp only
    split
    · rename_i hw
      have hq : b.queued = none := by
        simp only [CameraBuffer.waits, Bool.decide_and, Bool.and_eq_true, decide_eq_true_eq] at hw
        exact hw.1
      exact .waits requested ack hl ha hq
    · rename_i hw
      -- The stream is the requested one, so that only a queued frame ends the loop.
      have hstream : b.stream.map uuidString = some requested := by
        simp only [CameraBuffer.accepts, Bool.decide_and, Bool.and_eq_true,
          decide_eq_true_eq] at ha
        exact ha.1
      generalize htake : CameraBuffer.take F uuidString requested { b with leased := none } = r
      obtain ⟨o, b'⟩ := r
      rcases take_change htake with ⟨id, frame, hs, hid, hq, rfl, rfl⟩ | ⟨-, -, hq⟩
      · exact .answers requested ack id frame hl ha hs hid hq
      · exfalso
        apply hw
        rcases hq with hq | hq
        · simpa [CameraBuffer.waits, hstream] using hq
        · exact absurd hstream hq
  · rename_i ha
    refine .same _ _ (.inr ⟨_, rfl⟩) ?_
    rintro _ _ ⟨⟩
    simpa using ha

/-- **What a step does.** -/
theorem step_cases (h : step F uuidString b e = some (o, b')) : Change F uuidString b e o b' := by
  cases e with
  | beginStream =>
      obtain ⟨hl, h⟩ := Option.ite_none_right_eq_some.mp h
      cases h
      exact .begins hl
  | endStream =>
      obtain ⟨hl, h⟩ := Option.ite_none_right_eq_some.mp h
      cases h
      exact .ends hl
  | publish planes =>
      obtain ⟨hl, h⟩ := Option.ite_none_right_eq_some.mp h
      obtain ⟨rfl, rfl⟩ := Prod.ext_iff.mp (Option.some.inj h)
      exact publish_change hl
  | store k =>
      obtain ⟨⟨memory, stores⟩, hp, h⟩ := Option.map_eq_some_iff.mp h
      cases h
      exact .stores k memory stores hp
  | unlock =>
      rw [step] at h
      split at h
      · rename_i frame hl
        obtain ⟨hdone, h⟩ := Option.ite_none_right_eq_some.mp h
        cases h
        -- The lock is given back when nothing is left to store.
        refine .unlocks frame hl fun g hg w hw => ?_
        rw [List.isEmpty_iff.mp (List.all_eq_true.mp hdone g hg)] at hw
        cases hw
      · cases h
  | next requested ack =>
      obtain ⟨hl, h⟩ := Option.ite_none_right_eq_some.mp h
      obtain ⟨rfl, rfl⟩ := Prod.ext_iff.mp (Option.some.inj h)
      exact next_change hl
  | wake n timeout =>
      rw [step] at h
      split at h
      · rename_i call hn
        obtain ⟨hl, h⟩ := Option.ite_none_right_eq_some.mp h
        split at h
        · cases h
          exact .same _ _ (.inl rfl) nofun
        · rcases take_change (Option.some.inj h) with
            ⟨id, frame, hs, hid, hq, rfl, rfl⟩ | ⟨rfl, rfl, -⟩
          · exact .wakes n timeout call id frame hl hn hs hid hq
          · exact .stalls n timeout
      · cases h
  | copy slot generation sequence bytes destination =>
      cases h
      exact .copies slot generation sequence bytes destination
  | read reader k =>
      rw [step] at h
      split at h
      · rename_i r hr
        obtain ⟨r', hstep, h⟩ := Option.map_eq_some_iff.mp h
        cases h
        exact .reads reader k r r' hr hstep
      · cases h

end Steps

/-! ### The stores of the methods -/

section Stores
variable {F : Format} {slot id sequence : Nat} {pixels : Pixels}

/-- The stores of `clear` are the sequences, and each slot's generation with its pixels. -/
theorem mem_clear {g : List (Store Cell Value)} (hg : g ∈ clear F) :
    ∃ i < 3, g = [⟨.sequence i, .word 0⟩] ∨
      g = ⟨.generation i, .uuid none⟩ :: (List.range F.bytes).map fun j => ⟨.pixel i j, .byte 0⟩ := by
  obtain ⟨i, hi, hg⟩ := List.mem_flatMap.mp hg
  exact ⟨i, List.mem_range.mp hi, by simpa using hg⟩

/-- What is stored when the memory is cleared. -/
theorem clear_all : (clear F).All fun w => ∃ i < 3, w = ⟨.sequence i, .word 0⟩ ∨
    w = ⟨.generation i, .uuid none⟩ ∨ ∃ j, w = ⟨.pixel i j, .byte 0⟩ := by
  intro g hg w hw
  obtain ⟨i, hi, rfl | rfl⟩ := mem_clear hg
  · exact ⟨i, hi, .inl (List.mem_singleton.mp hw)⟩
  · rcases List.mem_cons.mp hw with rfl | hw
    · exact ⟨i, hi, .inr (.inl rfl)⟩
    · obtain ⟨j, -, rfl⟩ := List.mem_map.mp hw
      exact ⟨i, hi, .inr (.inr ⟨j, rfl⟩)⟩

/-- The stores of a frame's pixels go to different cells. -/
theorem pixels_nodup (slot : Nat) (f : Nat → Value) :
    (((List.range F.bytes).map fun i => (⟨.pixel slot i, f i⟩ : Store Cell Value)).map
      Store.cell).Nodup := by
  rw [List.map_map]
  exact List.nodup_range.map fun i j h => (Cell.pixel.inj h).2

/-- No group of `clear` stores to a cell twice. -/
theorem clear_tidy : (clear F).Tidy := by
  intro g hg
  obtain ⟨i, -, rfl | rfl⟩ := mem_clear hg
  · exact List.nodup_singleton _
  · rw [List.map_cons, List.nodup_cons]
    refine ⟨fun h => ?_, pixels_nodup i _⟩
    simp at h

/-- The sequence of a slot is taken away first. -/
theorem clear_behind (slot : Nat) :
    (clear F).Behind (·.slot = slot) ⟨.sequence slot, .word 0⟩ := by
  suffices h : ∀ l : List Nat, Stores.Behind (·.slot = slot) ⟨.sequence slot, .word 0⟩
      (l.flatMap fun i => [[⟨.sequence i, .word 0⟩], ⟨.generation i, .uuid none⟩ ::
        (List.range F.bytes).map fun j => (⟨.pixel i j, .byte 0⟩ : Store Cell Value)]) from h _
  intro l
  induction l with
  | nil => exact trivial
  | cons i l ih =>
      rw [List.flatMap_cons]
      by_cases hi : i = slot
      · subst hi
        exact .inr rfl
      · refine .inl ⟨by simpa [Cell.slot] using hi, .inl ⟨fun w hw => ?_, ih⟩⟩
        rcases List.mem_cons.mp hw with rfl | hw
        · exact hi
        · obtain ⟨j, -, rfl⟩ := List.mem_map.mp hw
          exact hi

/-- After `clear` no slot has a generation. -/
theorem eventual_clear (mem : Memory) (hslot : slot < 3) :
    Stores.eventual mem (clear F) (.generation slot) = .uuid none := by
  have hself : ∀ mem : Memory, Stores.settle mem (⟨.generation slot, .uuid none⟩ ::
      (List.range F.bytes).map fun j => ⟨.pixel slot j, .byte 0⟩) (.generation slot) = .uuid none :=
    fun mem => Stores.settle_mem (clear_tidy (F := F) _ (List.mem_flatMap.mpr
      ⟨slot, List.mem_range.mpr hslot, by simp⟩)) List.mem_cons_self
  have hother : ∀ (mem : Memory) (i : Nat), i ≠ slot → Stores.settle mem
      (⟨.generation i, .uuid none⟩ :: (List.range F.bytes).map fun j => ⟨.pixel i j, .byte 0⟩)
      (.generation slot) = mem (.generation slot) := by
    intro mem i hi
    refine Stores.settle_untouched fun w hw => ?_
    rcases List.mem_cons.mp hw with rfl | hw
    · exact fun h => hi (Cell.generation.inj h)
    · obtain ⟨j, -, rfl⟩ := List.mem_map.mp hw
      exact nofun
  have hsequence : ∀ (mem : Memory) (i : Nat),
      Stores.settle mem [⟨.sequence i, .word 0⟩] (.generation slot) = mem (.generation slot) :=
    fun mem i => by rw [Stores.settle_one, Function.update_of_ne (by simp)]
  have hclear : clear F = [0, 1, 2].flatMap fun i => [[⟨.sequence i, .word 0⟩],
      ⟨.generation i, .uuid none⟩ :: (List.range F.bytes).map fun j => ⟨.pixel i j, .byte 0⟩] := rfl
  have hcases : slot = 0 ∨ slot = 1 ∨ slot = 2 := by omega
  rw [hclear]
  simp only [List.flatMap_cons, List.flatMap_nil, List.cons_append, List.nil_append, Stores.eventual,
    List.foldl_cons, List.foldl_nil]
  rcases hcases with rfl | rfl | rfl
  · rw [hother _ 2 (by decide), hsequence, hother _ 1 (by decide), hsequence, hself]
  · rw [hother _ 2 (by decide), hsequence, hself]
  · rw [hself]

/-- What is stored when a frame is published. -/
theorem publish_all : (publish F slot id sequence pixels).All fun w =>
    w = ⟨.sequence slot, .word 0⟩ ∨ w = ⟨.sequence slot, .word sequence⟩ ∨
    w = ⟨.generation slot, .uuid (some id)⟩ ∨ ∃ i, w = ⟨.pixel slot i, .byte (pixels i)⟩ := by
  intro g hg w hw
  simp only [publish, List.mem_cons, List.not_mem_nil, or_false] at hg
  rcases hg with rfl | rfl | rfl | rfl
  · exact .inl (List.mem_singleton.mp hw)
  · exact .inr (.inr (.inl (List.mem_singleton.mp hw)))
  · obtain ⟨i, -, rfl⟩ := List.mem_map.mp hw
    exact .inr (.inr (.inr ⟨i, rfl⟩))
  · exact .inr (.inl (List.mem_singleton.mp hw))

/-- Publishing stores to its own slot alone. -/
theorem publish_slot : (publish F slot id sequence pixels).All fun w => w.cell.slot = slot := by
  intro g hg w hw
  rcases publish_all g hg w hw with rfl | rfl | rfl | ⟨i, rfl⟩ <;> rfl

/-- No group of `publish` stores to a cell twice. -/
theorem publish_tidy : (publish F slot id sequence pixels).Tidy := by
  intro g hg
  simp only [publish, List.mem_cons, List.not_mem_nil, or_false] at hg
  rcases hg with rfl | rfl | rfl | rfl
  · exact List.nodup_singleton _
  · exact List.nodup_singleton _
  · exact pixels_nodup slot _
  · exact List.nodup_singleton _

/-- Publishing takes the old sequence away before it touches the slot. -/
theorem publish_behind (d : Nat) :
    (publish F slot id sequence pixels).Behind (·.slot = d) ⟨.sequence d, .word 0⟩ := by
  by_cases hd : slot = d
  · subst hd
    exact .inr rfl
  · refine .of_untouched fun g hg w hw hslot => hd ?_
    rw [← publish_slot g hg w hw, hslot]

end Stores

/-! ### Frames in their slots -/

/-- The slot of the descriptor holds these pixels under its generation and sequence. -/
def Content (F : Format) (mem : Memory) (d : Descriptor) (pixels : Pixels) : Prop :=
  mem (.sequence d.slot) = .word d.sequence ∧
  mem (.generation d.slot) = .uuid (some d.generation) ∧
  ∀ i < F.bytes, mem (.pixel d.slot i) = .byte (pixels i)

/-- What a slot holds depends on the memory of that slot. -/
theorem content_congr {F : Format} {mem mem' : Memory} {d : Descriptor} {pixels : Pixels}
    (h : Content F mem d pixels) (hmem : ∀ c : Cell, c.slot = d.slot → mem' c = mem c) :
    Content F mem' d pixels :=
  ⟨(hmem _ rfl).trans h.1, (hmem _ rfl).trans h.2.1, fun i hi => (hmem _ rfl).trans (h.2.2 i hi)⟩

/-- What is published comes to be in its slot. -/
theorem eventual_publish (F : Format) (mem : Memory) (slot id sequence : Nat) (pixels : Pixels) :
    Content F (Stores.eventual mem (publish F slot id sequence pixels)) ⟨id, slot, sequence⟩
      pixels := by
  simp only [publish, Stores.eventual, List.foldl_cons, List.foldl_nil, Stores.settle_one]
  refine ⟨Function.update_self .., ?_, fun i hi => ?_⟩
  · rw [Function.update_of_ne (by simp), Stores.settle_untouched, Function.update_self]
    intro w hw
    obtain ⟨i, -, rfl⟩ := List.mem_map.mp hw
    exact nofun
  · rw [Function.update_of_ne (by simp)]
    exact Stores.settle_mem (pixels_nodup slot fun i => .byte (pixels i))
      (List.mem_map.mpr ⟨i, List.mem_range.mpr hi, rfl⟩)

/-! ### The slot of a descriptor -/

section Track
variable (F : Format) (d : Descriptor) (pixels : Pixels) (b : CameraBuffer)

/-- No store that is left gives the slot the descriptor's sequence. -/
def Harmless : Prop :=
  b.stores.All fun w => w.cell = .sequence d.slot → w.value ≠ .word d.sequence

/-- The frame is in its slot, and what is left to store takes the sequence away first. -/
def Intact : Prop :=
  Content F b.memory d pixels ∧
  b.stores.Behind (·.slot = d.slot) ⟨.sequence d.slot, .word 0⟩ ∧ Harmless d b

/-- The slot has lost the sequence. -/
def Spoiled : Prop := b.memory (.sequence d.slot) ≠ .word d.sequence ∧ Harmless d b

/-- The slot has lost the generation, and the stream is over. -/
def Gone : Prop :=
  b.memory (.generation d.slot) ≠ .uuid (some d.generation) ∧ b.stream ≠ some d.generation ∧
  b.stores.All fun w => w.cell = .generation d.slot → w.value ≠ .uuid (some d.generation)

/-- The descriptor was handed out, and its slot is in one of the three conditions. -/
def Track : Prop :=
  (d.slot < 3 ∧ 1 ≤ d.sequence ∧ d.generation < b.drawn ∧
    (b.stream = some d.generation → d.sequence ≤ b.sequence)) ∧
  (Intact F d pixels b ∨ Spoiled d b ∨ Gone d b)

end Track

/-- The frame was published by the current stream, and the memory holds it. -/
def Shown (F : Format) (mem : Memory) (b : CameraBuffer) (f : Frame) : Prop :=
  ∃ id pixels, b.stream = some id ∧ ⟨id, f.sequence, pixels⟩ ∈ b.published ∧ f.slot < 3 ∧
    1 ≤ f.sequence ∧ f.sequence ≤ b.sequence ∧ Content F mem ⟨id, f.slot, f.sequence⟩ pixels

/-- The value is no generation, or the current stream's. -/
def Current (b : CameraBuffer) (v : Value) : Prop := v = .uuid none ∨ v = .uuid b.stream

structure Sound (F : Format) (b : CameraBuffer) : Prop where
  tidy : b.stores.Tidy
  idle : b.lock = none → b.stores = []
  stream : ∀ id, b.stream = some id → b.generation = some id ∧ id < b.drawn
  generations : b.stores.All fun w => ∀ slot, w.cell = .generation slot → Current b w.value
  current : ∀ slot < 3, Current b (b.stores.eventual b.memory (.generation slot))
  publishing : ∀ f, b.lock = some (some f) → Shown F (b.stores.eventual b.memory) b f ∧
    b.stores.All fun w => w.cell.slot = f.slot
  queued : ∀ f, b.queued = some f → Shown F b.memory b f ∧
    b.stores.All fun w => w.cell.slot ≠ f.slot
  delivered : ∀ d ∈ b.delivered, ∃ pixels,
    ⟨d.generation, d.sequence, pixels⟩ ∈ b.published ∧ Track F d pixels b
  published : ∀ p ∈ b.published, p.generation < b.drawn ∧
    (b.stream = some p.generation → p.sequence ≤ b.sequence)
  distinct : (b.published.map fun p => (p.generation, p.sequence)).Nodup

section TrackStep
variable {F : Format} {uuidString : Nat → String} {d : Descriptor} {pixels : Pixels}
  {b b' : CameraBuffer} {e : Event} {o : Output}

/-- Only one of the conditions holds of a slot that is intact. -/
theorem Intact.alone (h : Intact F d pixels b) : ¬ Spoiled d b ∧ ¬ Gone d b :=
  ⟨fun hs => hs.1 h.1.1, fun hg => hg.1 h.1.2.1⟩

/-- A store takes the sequence of an intact slot away, or leaves the slot alone. -/
theorem Intact.store (h : Intact F d pixels b) (hseq : 1 ≤ d.sequence) {k : Nat} {mem : Memory}
    {stores : Stores Cell Value} (hp : Stores.perform b.memory b.stores k = some (mem, stores)) :
    Intact F d pixels { b with memory := mem, stores := stores } ∨
    Spoiled d { b with memory := mem, stores := stores } := by
  obtain ⟨hcontent, hbehind, hharmless⟩ := h
  rcases hbehind.perform hp with rfl | ⟨hsame, hbehind⟩
  · refine .inr ⟨fun h => ?_, hharmless.perform hp⟩
    have := Value.word.inj ((Function.update_self (Cell.sequence d.slot) _ _).symm.trans h)
    omega
  · exact .inl ⟨content_congr hcontent hsame, hbehind, hharmless.perform hp⟩

/-- A slot that has lost the sequence does not get it back. -/
theorem Spoiled.store (h : Spoiled d b) {k : Nat} {mem : Memory} {stores : Stores Cell Value}
    (hp : Stores.perform b.memory b.stores k = some (mem, stores)) :
    Spoiled d { b with memory := mem, stores := stores } := by
  refine ⟨?_, h.2.perform hp⟩
  rcases h.2.perform_cell hp (.sequence d.slot) with hsame | hnew
  · exact fun heq => h.1 (hsame.symm.trans heq)
  · exact hnew rfl

/-- A slot whose stream is over does not get its generation back. -/
theorem Gone.store (h : Gone d b) {k : Nat} {mem : Memory} {stores : Stores Cell Value}
    (hp : Stores.perform b.memory b.stores k = some (mem, stores)) :
    Gone d { b with memory := mem, stores := stores } := by
  refine ⟨?_, h.2.1, h.2.2.perform hp⟩
  rcases h.2.2.perform_cell hp (.generation d.slot) with hsame | hnew
  · exact fun heq => h.1 (hsame.symm.trans heq)
  · exact hnew rfl

/-- The program of a method that clears the memory does no harm. -/
theorem clear_harmless (hseq : 1 ≤ d.sequence) :
    (clear F).All fun w => w.cell = .sequence d.slot → w.value ≠ .word d.sequence := by
  intro g hg w hw hcell
  obtain ⟨i, -, rfl | rfl | ⟨j, rfl⟩⟩ := clear_all g hg w hw
  · intro h
    have := Value.word.inj h
    omega
  · cases hcell
  · cases hcell

/-- The generations that `clear` stores are none. -/
theorem clear_generations : (clear F).All fun w => ∀ slot, w.cell = .generation slot →
    w.value = .uuid none := by
  intro g hg w hw slot hcell
  obtain ⟨i, -, rfl | rfl | ⟨j, rfl⟩⟩ := clear_all g hg w hw
  · cases hcell
  · rfl
  · cases hcell

/-- The condition of the slot moves on, and never back. -/
def Onward (F : Format) (d : Descriptor) (pixels : Pixels) (b b' : CameraBuffer) : Prop :=
  (Intact F d pixels b → Intact F d pixels b' ∨ Spoiled d b') ∧
  (Spoiled d b → Spoiled d b' ∨ Gone d b') ∧ (Gone d b → Gone d b')

theorem Onward.refl : Onward F d pixels b b := ⟨.inl, .inl, id⟩

/-- A store leaves the condition of a slot or moves it on. -/
theorem Onward.store (hseq : 1 ≤ d.sequence) {k : Nat} {mem : Memory} {stores : Stores Cell Value}
    (hp : Stores.perform b.memory b.stores k = some (mem, stores)) :
    Onward F d pixels b { b with memory := mem, stores := stores } :=
  ⟨fun h => h.store hseq hp, fun h => .inl (h.store hp), fun h => h.store hp⟩

/-- A method that clears the memory and leaves the stream. -/
theorem Onward.clear (hseq : 1 ≤ d.sequence) (hmem : b'.memory = b.memory)
    (hstores : b'.stores = clear F) (hstream : b'.stream ≠ some d.generation) :
    Onward F d pixels b b' := by
  have hharmless : Harmless d b' := by
    rw [Harmless, hstores]
    exact clear_harmless hseq
  refine ⟨fun h => .inl ⟨?_, ?_, hharmless⟩, fun h => .inl ⟨?_, hharmless⟩, fun h => ⟨?_, hstream, ?_⟩⟩
  · rw [hmem]
    exact h.1
  · rw [hstores]
    exact clear_behind d.slot
  · rw [hmem]
    exact h.1
  · rw [hmem]
    exact h.1
  · rw [hstores]
    intro g hg w hw hcell hvalue
    cases (clear_generations g hg w hw _ hcell).symm.trans hvalue

/-- A frame that is published under the descriptor's stream has a later sequence. -/
theorem Onward.publish_same (hmem : b'.memory = b.memory) {slot sequence : Nat} {new : Pixels}
    (hstores : b'.stores = publish F slot d.generation sequence new)
    (hseq : 1 ≤ d.sequence) (hlater : d.sequence < sequence) (hstream : b.stream = some d.generation) :
    Onward F d pixels b b' := by
  have hharmless : Harmless d b' := by
    rw [Harmless, hstores]
    intro g hg w hw hcell hvalue
    rcases publish_all g hg w hw with rfl | rfl | rfl | ⟨i, rfl⟩
    · have := Value.word.inj hvalue
      omega
    · have := Value.word.inj hvalue
      omega
    · cases hcell
    · cases hcell
  refine ⟨fun h => .inl ⟨?_, ?_, hharmless⟩, fun h => .inl ⟨?_, hharmless⟩,
    fun h => absurd hstream h.2.1⟩
  · rw [hmem]
    exact h.1
  · rw [hstores]
    exact publish_behind d.slot
  · rw [hmem]
    exact h.1

/-- A frame of another stream finds the slot without the descriptor's generation. -/
theorem Onward.publish_other (hmem : b'.memory = b.memory) {slot id sequence : Nat} {new : Pixels}
    (hstores : b'.stores = publish F slot id sequence new) (hne : id ≠ d.generation)
    (hstream : b'.stream = some id)
    (hother : b.memory (.generation d.slot) ≠ .uuid (some d.generation)) :
    Onward F d pixels b b' := by
  have hgone : Gone d b' := by
    refine ⟨by rwa [hmem], ?_, ?_⟩
    · rw [hstream]
      exact fun h => hne (Option.some.inj h)
    · rw [hstores]
      intro g hg w hw hcell hvalue
      rcases publish_all g hg w hw with rfl | rfl | rfl | ⟨i, rfl⟩
      · cases hcell
      · cases hcell
      · exact hne (Option.some.inj (Value.uuid.inj hvalue))
      · cases hcell
  exact ⟨fun h => absurd h.1.2.1 hother, fun _ => .inr hgone, fun _ => hgone⟩

/-- At rest the slots have no generation but the current stream's. -/
theorem Sound.generation (S : Sound F b) (hl : b.lock = none) {slot : Nat} (hslot : slot < 3) :
    Current b (b.memory (.generation slot)) := by
  have h := S.current slot hslot
  rw [S.idle hl] at h
  exact h

theorem onward_step (S : Sound F b) (T : Track F d pixels b) (h : Change F uuidString b e o b') :
    Onward F d pixels b b' := by
  obtain ⟨⟨hslot, hseq, hgen, hle⟩, -⟩ := T
  cases h with
  | begins hl => exact .clear hseq rfl rfl fun h => absurd (Option.some.inj h) (Nat.ne_of_gt hgen)
  | ends hl => exact .clear hseq rfl rfl nofun
  | publishes planes id generation slot hl hs hg hlt hfree =>
      obtain rfl : generation = id := Option.some.inj (hg.symm.trans (S.stream id hs).1)
      by_cases hid : generation = d.generation
      · subst hid
        have := hle hs
        exact .publish_same rfl rfl hseq (by omega) hs
      · refine .publish_other rfl rfl hid hs fun h => ?_
        rcases S.generation hl hslot with hnone | hcurrent
        · cases hnone.symm.trans h
        · rw [hs, h] at hcurrent
          exact hid (Option.some.inj (Value.uuid.inj hcurrent)).symm
  | stores k memory stores hp => exact .store hseq hp
  | unlocks frame hl hdone =>
      exact ⟨fun h => .inl ⟨h.1, trivial, nofun⟩, fun h => .inl ⟨h.1, nofun⟩,
        fun h => ⟨h.1, h.2.1, nofun⟩⟩
  | fails | waits | answers | wakes | stalls | copies | reads | same => exact .refl

/-- After each step a descriptor's slot is in one of the three conditions. -/
theorem track_step (S : Sound F b) (T : Track F d pixels b) (h : Change F uuidString b e o b') :
    Track F d pixels b' := by
  obtain ⟨hintact, hspoiled, hgone⟩ := onward_step S T h
  obtain ⟨⟨hslot, hseq, hgen, hle⟩, hcond⟩ := T
  refine ⟨⟨hslot, hseq, ?_⟩, ?_⟩
  · cases h with
    | begins hl =>
        exact ⟨Nat.lt_succ_of_lt hgen, fun h => absurd (Option.some.inj h) (Nat.ne_of_gt hgen)⟩
    | ends hl => exact ⟨hgen, nofun⟩
    | publishes => exact ⟨hgen, fun h => Nat.le_succ_of_le (hle h)⟩
    | fails => exact ⟨hgen, fun h => Nat.le_succ_of_le (hle h)⟩
    | stores | unlocks | waits | answers | wakes | stalls | copies | reads | same =>
        exact ⟨hgen, hle⟩
  · rcases hcond with h | h | h
    · exact (hintact h).imp_right .inl
    · exact .inr (hspoiled h)
    · exact .inr (.inr (hgone h))

/-- A slot that is intact was so before. -/
theorem intact_before (S : Sound F b) (T : Track F d pixels b) (h : Change F uuidString b e o b')
    (hafter : Intact F d pixels b') : Intact F d pixels b := by
  obtain ⟨-, hspoiled, hgone⟩ := onward_step S T h
  rcases T.2 with h | h | h
  · exact h
  · rcases hspoiled h with h | h
    · exact absurd h hafter.alone.1
    · exact absurd h hafter.alone.2
  · exact absurd (hgone h) hafter.alone.2

/-! ### What the buffer keeps to -/

theorem Shown.mono {mem mem' : Memory} {f : Frame} (h : Shown F mem b f)
    (hstream : b'.stream = b.stream) (hpub : ∀ p ∈ b.published, p ∈ b'.published)
    (hseq : b.sequence ≤ b'.sequence) (hmem : ∀ c : Cell, c.slot = f.slot → mem' c = mem c) :
    Shown F mem' b' f := by
  obtain ⟨id, pixels, hs, hp, hslot, hone, hle, hcontent⟩ := h
  exact ⟨id, pixels, hstream.trans hs, hpub _ hp, hslot, hone, Nat.le_trans hle hseq,
    content_congr hcontent hmem⟩

/-- A new buffer is sound, whatever the memory holds. -/
theorem sound_initial (F : Format) (memory : Memory) : Sound F (.initial F memory) where
  tidy := clear_tidy
  idle := nofun
  stream := nofun
  generations g hg w hw slot hcell := .inl (clear_generations g hg w hw slot hcell)
  current _ hslot := .inl (eventual_clear memory hslot)
  publishing := nofun
  queued := nofun
  delivered := nofun
  published := nofun
  distinct := List.nodup_nil

/-- The frame that `next` hands out is in its slot. -/
theorem track_queued (S : Sound F b) (hl : b.lock = none) {id : Nat} (hs : b.stream = some id)
    {f : Frame} (hq : b.queued = some f) :
    ∃ pixels, ⟨id, f.sequence, pixels⟩ ∈ b.published ∧
      Track F ⟨id, f.slot, f.sequence⟩ pixels b := by
  obtain ⟨⟨id', pixels, hs', hp, hslot, hone, hle, hcontent⟩, -⟩ := S.queued f hq
  obtain rfl := Option.some.inj (hs.symm.trans hs')
  refine ⟨pixels, hp, ⟨hslot, hone, (S.stream id hs).2, fun _ => hle⟩, .inl ⟨hcontent, ?_, ?_⟩⟩
  · rw [S.idle hl]
    exact trivial
  · rw [Harmless, S.idle hl]
    exact nofun

/-- A descriptor that was handed out stays one of a published frame. -/
theorem delivered_step (S : Sound F b) (h : Change F uuidString b e o b')
    (hpub : ∀ p ∈ b.published, p ∈ b'.published) {d : Descriptor} (hd : d ∈ b.delivered) :
    ∃ pixels, ⟨d.generation, d.sequence, pixels⟩ ∈ b'.published ∧ Track F d pixels b' := by
  obtain ⟨pixels, hp, T⟩ := S.delivered d hd
  exact ⟨pixels, hpub _ hp, track_step S T h⟩

/-- Publishing keeps the buffer sound. -/
theorem sound_publish (S : Sound F b) {planes : Planes} {id slot : Nat}
    (hl : b.lock = none) (hs : b.stream = some id) (hfree : b.free = some slot)
    (hdelivered : ∀ d ∈ b.delivered, ∃ pixels,
      (⟨d.generation, d.sequence, pixels⟩ : Publication) ∈
        b.published ++ [⟨id, b.sequence + 1, planes.pixels F⟩] ∧
      Track F d pixels { b with
        sequence := b.sequence + 1
        stores := publish F slot id (b.sequence + 1) (planes.pixels F) }) :
    Sound F { b with
      sequence := b.sequence + 1
      stores := publish F slot id (b.sequence + 1) (planes.pixels F)
      lock := some (some ⟨slot, b.sequence + 1⟩)
      published := b.published ++ [⟨id, b.sequence + 1, planes.pixels F⟩] } where
  tidy := publish_tidy
  idle := nofun
  stream := S.stream
  generations := by
    intro g hg w hw slot' hcell
    right
    rcases publish_all g hg w hw with rfl | rfl | rfl | ⟨i, rfl⟩
    · cases hcell
    · cases hcell
    · exact congrArg Value.uuid hs.symm
    · cases hcell
  current := by
    intro slot' hslot'
    by_cases heq : slot' = slot
    · subst heq
      right
      rw [(eventual_publish F b.memory slot' id (b.sequence + 1) (planes.pixels F)).2.1]
      exact congrArg Value.uuid hs.symm
    · rw [Stores.eventual_untouched]
      · exact S.generation hl hslot'
      · intro g hg w hw hcell
        have hslot : w.cell.slot = slot := publish_slot g hg w hw
        rw [hcell] at hslot
        exact heq hslot
  publishing := by
    rintro f ⟨⟩
    refine ⟨⟨id, planes.pixels F, hs, ?_, (free_eq_some hfree).1, Nat.succ_pos _, Nat.le_refl _,
      eventual_publish ..⟩, publish_slot⟩
    exact List.mem_append_right _ (List.mem_singleton_self _)
  queued := by
    intro f hq
    obtain ⟨hshown, -⟩ := S.queued f hq
    refine ⟨hshown.mono rfl (fun p hp => List.mem_append_left _ hp) (Nat.le_succ _) fun _ _ => rfl, ?_⟩
    intro g hg w hw hcell
    -- The free slot is not the one of the queued frame.
    refine (free_eq_some hfree).2.2 ?_
    rw [hq, ← publish_slot g hg w hw, hcell]
    rfl
  delivered := hdelivered
  published := by
    intro p hp
    rcases List.mem_append.mp hp with hp | hp
    · obtain ⟨hgen, hle⟩ := S.published p hp
      exact ⟨hgen, fun h => Nat.le_succ_of_le (hle h)⟩
    · obtain rfl := List.mem_singleton.mp hp
      exact ⟨(S.stream id hs).2, fun _ => Nat.le_refl _⟩
  distinct := by
    rw [List.map_append, List.nodup_append]
    refine ⟨S.distinct, List.nodup_singleton _, ?_⟩
    rintro x hx y hy rfl
    obtain ⟨p, hp, rfl⟩ := List.mem_map.mp hx
    obtain ⟨hgen, hseq⟩ := Prod.ext_iff.mp (List.mem_singleton.mp hy)
    have := (S.published p hp).2 (hs.trans (congrArg some hgen.symm))
    simp only at hseq
    omega

/-- A store keeps the buffer sound. -/
theorem sound_store (S : Sound F b) {k : Nat} {mem : Memory} {stores : Stores Cell Value}
    (hp : Stores.perform b.memory b.stores k = some (mem, stores))
    (hdelivered : ∀ d ∈ b.delivered, ∃ pixels,
      (⟨d.generation, d.sequence, pixels⟩ : Publication) ∈ b.published ∧
        Track F d pixels { b with memory := mem, stores := stores }) :
    Sound F { b with memory := mem, stores := stores } where
  tidy := S.tidy.perform hp
  idle := by
    intro hl
    rw [S.idle hl] at hp
    cases hp
  stream := S.stream
  generations := S.generations.perform hp
  current := by
    intro slot hslot
    show Current b _
    rw [Stores.eventual_perform S.tidy hp]
    exact S.current slot hslot
  publishing := by
    intro f hf
    obtain ⟨hshown, hslot⟩ := S.publishing f hf
    refine ⟨hshown.mono rfl (fun _ h => h) (Nat.le_refl _) fun c _ => ?_, hslot.perform hp⟩
    exact congrFun (Stores.eventual_perform S.tidy hp) c
  queued := by
    intro f hf
    obtain ⟨hshown, hslot⟩ := S.queued f hf
    refine ⟨hshown.mono rfl (fun _ h => h) (Nat.le_refl _) fun c hc => ?_, hslot.perform hp⟩
    exact (hslot.perform_cell hp c).resolve_right fun hne => hne hc
  delivered := hdelivered
  published := S.published
  distinct := S.distinct

theorem sound_unlock (S : Sound F b) {frame : Option Frame} (hl : b.lock = some frame)
    (hdone : b.stores.All fun _ => False)
    (hdelivered : ∀ d ∈ b.delivered, ∃ pixels,
      (⟨d.generation, d.sequence, pixels⟩ : Publication) ∈ b.published ∧
        Track F d pixels { b with lock := none, stores := [], queued := frame.or b.queued }) :
    Sound F { b with lock := none, stores := [], queued := frame.or b.queued } where
  tidy := nofun
  idle _ := rfl
  stream := S.stream
  generations := nofun
  current := by
    intro slot hslot
    have h := S.current slot hslot
    rw [Stores.eventual_done hdone] at h
    exact h
  publishing := nofun
  queued := by
    intro f hf
    refine ⟨?_, nofun⟩
    cases frame with
    | none => exact (S.queued f hf).1.mono rfl (fun _ h => h) (Nat.le_refl _) fun _ _ => rfl
    | some f' =>
        obtain rfl := Option.some.inj hf
        have h := (S.publishing f' hl).1
        rw [Stores.eventual_done hdone] at h
        exact h.mono rfl (fun _ h => h) (Nat.le_refl _) fun _ _ => rfl
  delivered := hdelivered
  published := S.published
  distinct := S.distinct

/-- **Every step keeps the buffer sound.** -/
theorem sound_step (S : Sound F b) (h : Change F uuidString b e o b') : Sound F b' := by
  -- Each case says what the change does to the rest; what was handed out is `delivered_step`.
  have hd := @delivered_step F uuidString b b' e o S h
  cases h with
  | begins hl =>
      exact
        { tidy := clear_tidy
          idle := nofun
          stream := by
            rintro id ⟨⟩
            exact ⟨rfl, Nat.lt_succ_self _⟩
          generations := fun g hg w hw slot hcell => .inl (clear_generations g hg w hw slot hcell)
          current := fun slot hslot => .inl (eventual_clear b.memory hslot)
          publishing := nofun
          queued := nofun
          delivered := fun d => hd fun _ h => h
          published := fun p hp =>
            ⟨Nat.lt_succ_of_lt (S.published p hp).1,
              fun h => absurd (Option.some.inj h) (Nat.ne_of_gt (S.published p hp).1)⟩
          distinct := S.distinct }
  | ends hl =>
      exact
        { tidy := clear_tidy
          idle := nofun
          stream := nofun
          generations := fun g hg w hw slot hcell => .inl (clear_generations g hg w hw slot hcell)
          current := fun slot hslot => .inl (eventual_clear b.memory hslot)
          publishing := nofun
          queued := nofun
          delivered := fun d => hd fun _ h => h
          published := fun p hp => ⟨(S.published p hp).1, nofun⟩
          distinct := S.distinct }
  | publishes planes id generation slot hl hs hg hlt hfree =>
      obtain rfl : generation = id := Option.some.inj (hg.symm.trans (S.stream id hs).1)
      exact sound_publish S hl hs hfree fun d => hd fun _ h => List.mem_append_left _ h
  | fails planes hl hlt =>
      exact
        { tidy := S.tidy
          idle := S.idle
          stream := S.stream
          generations := S.generations
          current := S.current
          publishing := fun f hf => by cases hl.symm.trans hf
          queued := fun f hf => ⟨(S.queued f hf).1.mono rfl (fun _ h => h) (Nat.le_succ _)
            fun _ _ => rfl, (S.queued f hf).2⟩
          delivered := fun d => hd fun _ h => h
          published := fun p hp => ⟨(S.published p hp).1,
            fun h => Nat.le_succ_of_le ((S.published p hp).2 h)⟩
          distinct := S.distinct }
  | stores k memory stores hp => exact sound_store S hp fun d => hd fun _ h => h
  | unlocks frame hl hdone => exact sound_unlock S hl hdone fun d => hd fun _ h => h
  | answers requested ack id frame hl ha hs hid hq =>
      exact ⟨S.tidy, S.idle, S.stream, S.generations, S.current, S.publishing, nofun,
        fun d hd' => (List.mem_append.mp hd').elim (hd fun _ h => h) fun h => by
          obtain rfl := List.mem_singleton.mp h
          exact track_queued S hl hs hq,
        S.published, S.distinct⟩
  | wakes n timeout call id frame hl hn hs hid hq =>
      exact ⟨S.tidy, S.idle, S.stream, S.generations, S.current, S.publishing, nofun,
        fun d hd' => (List.mem_append.mp hd').elim (hd fun _ h => h) fun h => by
          obtain rfl := List.mem_singleton.mp h
          exact track_queued S hl hs hq,
        S.published, S.distinct⟩
  | waits | stalls | copies | reads | same =>
      exact ⟨S.tidy, S.idle, S.stream, S.generations, S.current, S.publishing, S.queued,
        S.delivered, S.published, S.distinct⟩

end TrackStep

/-! ### Readers -/

/-- How far the copy is, and what it has of the frame: `original` is what the destination was. -/
def Copying (F : Format) (d : Descriptor) (pixels original : Pixels) (b : CameraBuffer)
    (r : Reader) : Prop :=
  (r.slot = d.slot ∧ r.generation = d.generation ∧ r.sequence = d.sequence) ∧
  match r.phase with
  | .load | .compare => r.destination = original
  | .copying left => Intact F d pixels b → ∀ i < F.bytes, i ∉ left → r.destination i = pixels i
  | .recompare => (∀ i < F.bytes, r.destination i = pixels i) ∨ Gone d b
  | .returned code =>
      code = 0 ∧ (∀ i < F.bytes, r.destination i = pixels i) ∨
      code ≠ 0 ∧ (r.destination = original ∨ ∀ i < F.bytes, r.destination i = 0)

section Readers
variable {F : Format} {uuidString : Nat → String} {d : Descriptor} {pixels original : Pixels}
  {b b' : CameraBuffer} {e : Event} {o : Output} {r r' : Reader}

/-- A copy starts with what the destination was. -/
theorem Copying.start (bytes : Nat) :
    Copying F d pixels original b
      (.start F d.slot d.generation d.sequence bytes original) := by
  refine ⟨⟨rfl, rfl, rfl⟩, ?_⟩
  unfold Reader.start
  dsimp only
  split
  · rename_i hphase
    split at hphase <;> cases hphase
    rfl
  · rename_i hphase
    split at hphase <;> cases hphase
  · rename_i hphase
    split at hphase <;> cases hphase
  · rename_i hphase
    split at hphase <;> cases hphase
  · rename_i hphase
    split at hphase <;> cases hphase
    exact .inr ⟨by decide, .inl rfl⟩

/-- A reader that does not move keeps what it has. -/
theorem Copying.later (S : Sound F b) (T : Track F d pixels b) (h : Change F uuidString b e o b')
    (hc : Copying F d pixels original b r) : Copying F d pixels original b' r := by
  obtain ⟨hargs, hc⟩ := hc
  refine ⟨hargs, ?_⟩
  split at hc
  · exact hc
  · exact hc
  · exact fun hintact => hc (intact_before S T h hintact)
  · exact hc.imp_right (onward_step S T h).2.2
  · exact hc

/-- What is not left of a list, and is not what was taken, was not in it. -/
theorem not_mem_of_eraseIdx {l : List Nat} {k x y : Nat} (hk : l[k]? = some y)
    (hx : x ∉ l.eraseIdx k) (hne : x ≠ y) : x ∉ l := by
  intro hmem
  obtain ⟨n, hn⟩ := List.mem_iff_getElem?.mp hmem
  refine hx (List.mem_eraseIdx_iff_getElem?.mpr ⟨n, ?_, hn⟩)
  rintro rfl
  exact hne (Option.some.inj (hn.symm.trans hk))

/-- A destination that is zeroed has nothing of the frame. -/
theorem Copying.zero
    (hargs : r.slot = d.slot ∧ r.generation = d.generation ∧ r.sequence = d.sequence) :
    Copying F d pixels original b (r.zero F) :=
  ⟨hargs, .inr ⟨by decide, .inr fun i hi => if_pos hi⟩⟩

/-- **A load of the reader.** -/
theorem Copying.step (T : Track F d pixels b) (hc : Copying F d pixels original b r) {k : Nat}
    (h : r.step F b.memory k = some r') : Copying F d pixels original b r' := by
  obtain ⟨hargs, hc⟩ := hc
  unfold Reader.step at h
  cases hphase : r.phase with
  | load =>
      rw [hphase] at h hc
      obtain rfl := Option.some.inj h
      split
      · exact ⟨hargs, hc⟩
      · exact ⟨hargs, .inr ⟨by decide, .inl hc⟩⟩
  | compare =>
      rw [hphase] at h hc
      obtain rfl := Option.some.inj h
      split
      · exact ⟨hargs, fun _ i hi hleft => absurd (List.mem_range.mpr hi) hleft⟩
      · exact ⟨hargs, .inr ⟨by decide, .inl hc⟩⟩
  | copying left =>
      rw [hphase] at h hc
      cases left with
      | nil =>
          obtain rfl := Option.some.inj h
          split
          · rename_i hseq
            -- The sequence is still there: no store has touched the slot, or the stream is over.
            refine ⟨hargs, ?_⟩
            rcases T.2 with hintact | hspoiled | hgone
            · exact .inl fun i hi => hc hintact i hi (List.not_mem_nil)
            · rw [hargs.1, hargs.2.2] at hseq
              exact absurd hseq hspoiled.1
            · exact .inr hgone
          · exact .zero hargs
      | cons j left =>
          obtain ⟨i, hi, rfl⟩ := Option.map_eq_some_iff.mp h
          refine ⟨hargs, fun hintact x hx hleft => ?_⟩
          dsimp only
          by_cases hxi : x = i
          · subst hxi
            rw [Function.update_self, hargs.1, hintact.1.2.2 x hx]
            rfl
          · rw [Function.update_of_ne hxi]
            exact hc hintact x hx (not_mem_of_eraseIdx hi hleft hxi)
  | recompare =>
      rw [hphase] at h hc
      obtain rfl := Option.some.inj h
      split
      · rename_i hgen
        refine ⟨hargs, .inl ⟨rfl, ?_⟩⟩
        rw [hargs.1, hargs.2.1] at hgen
        exact hc.resolve_right fun hgone => hgone.1 hgen
      · exact .zero hargs
  | returned code =>
      rw [hphase] at h
      cases h

/-- Each step keeps a reader's copy one of the frame, as far as it is. -/
theorem reader_step (S : Sound F b) (T : Track F d pixels b) (h : Change F uuidString b e o b')
    {n : Nat} (hr : b.readers[n]? = some r) (hc : Copying F d pixels original b r) :
    ∃ r', b'.readers[n]? = some r' ∧ Copying F d pixels original b' r' := by
  have hlater := hc.later S T h
  cases h with
  | copies slot generation sequence bytes destination =>
      refine ⟨r, ?_, hlater⟩
      rw [List.getElem?_append_left (List.getElem?_eq_some_iff.mp hr).1]
      exact hr
  | reads reader k r₀ r₁ hr₀ hstep =>
      by_cases hn : reader = n
      · subst hn
        obtain rfl := Option.some.inj (hr₀.symm.trans hr)
        refine ⟨r₁, ?_, hc.step T hstep⟩
        exact List.getElem?_set_self (List.getElem?_eq_some_iff.mp hr).1
      · exact ⟨r, (List.getElem?_set_ne hn).trans hr, hlater⟩
  | begins | ends | publishes | fails | stores | unlocks | waits | answers | wakes | stalls
  | same => exact ⟨r, hr, hlater⟩

/-- A reader of a tracked descriptor, over a run. -/
theorem reader_run {t : Trace} (h : Run F uuidString b t b') (S : Sound F b)
    (T : Track F d pixels b) {n : Nat} (hr : b.readers[n]? = some r)
    (hc : Copying F d pixels original b r) :
    Sound F b' ∧ Track F d pixels b' ∧
      ∃ r', b'.readers[n]? = some r' ∧ Copying F d pixels original b' r' := by
  refine h.invariant (I := fun b => Sound F b ∧ Track F d pixels b ∧
    ∃ r', b.readers[n]? = some r' ∧ Copying F d pixels original b r') ?_ ⟨S, T, r, hr, hc⟩
  rintro b e o b' ⟨S, T, r, hr, hc⟩ h
  have h := step_cases h
  exact ⟨sound_step S h, track_step S T h, reader_step S T h hr hc⟩

/-- The buffer is sound in every reachable state. -/
theorem sound_run {memory : Memory} {t : Trace}
    (h : Run F uuidString (.initial F memory) t b) : Sound F b :=
  h.invariant (I := Sound F) (fun S h => sound_step S (step_cases h)) (sound_initial F memory)

/-- A frame that was published stays published. -/
theorem published_mono {t : Trace} (h : Run F uuidString b t b') {p : Publication}
    (hp : p ∈ b.published) : p ∈ b'.published := by
  refine h.invariant (I := fun b => p ∈ b.published) ?_ hp
  intro b e o b' hp h
  cases step_cases h with
  | publishes => exact List.mem_append_left _ hp
  | begins | ends | fails | stores | unlocks | waits | answers | wakes | stalls | copies | reads
  | same => exact hp

end Readers

/-! ### Copies -/

/-- **A copy is the frame, or nothing.**  For a descriptor that `next` has returned, a copy that
returns zero has the pixels of the one frame that was published under its generation and sequence;
any other leaves its destination as it was, or zero. -/
theorem copy_exact (F : Format) (uuidString : Nat → String) (memory : Memory) {t u : Trace}
    {b b₁ b₂ : CameraBuffer} {d : Descriptor} {bytes : Nat} {destination : Pixels} {o : Output}
    {r : Reader} {code : Int} (hrun : Run F uuidString (.initial F memory) t b)
    (hd : d ∈ b.delivered)
    (hstart : step F uuidString b (.copy d.slot d.generation d.sequence bytes destination) =
      some (o, b₁))
    (hrest : Run F uuidString b₁ u b₂) (hr : b₂.readers[b.readers.length]? = some r)
    (hcode : r.phase = .returned code) :
    (code = 0 → ∃ p ∈ b₂.published, p.generation = d.generation ∧ p.sequence = d.sequence ∧
      (∀ q ∈ b₂.published, q.generation = d.generation → q.sequence = d.sequence → q = p) ∧
      ∀ i < F.bytes, r.destination i = p.pixels i) ∧
    (code ≠ 0 → r.destination = destination ∨ ∀ i < F.bytes, r.destination i = 0) := by
  have S := sound_run hrun
  obtain ⟨pixels, hp, T⟩ := S.delivered d hd
  have hchange := step_cases hstart
  have S₁ := sound_step S hchange
  have T₁ := track_step S T hchange
  have hp₁ : ⟨d.generation, d.sequence, pixels⟩ ∈ b₁.published := published_mono (.one hstart) hp
  have hreader : b₁.readers[b.readers.length]? =
      some (.start F d.slot d.generation d.sequence bytes destination) := by
    cases hstart
    exact List.getElem?_concat_length
  obtain ⟨S₂, -, r', hr', hargs, hc⟩ := reader_run hrest S₁ T₁ hreader (Copying.start bytes)
  obtain rfl := Option.some.inj (hr.symm.trans hr')
  rw [hcode] at hc
  rcases hc with ⟨rfl, hpixels⟩ | ⟨hne, hdest⟩
  · refine ⟨fun _ => ⟨_, published_mono hrest hp₁, rfl, rfl, ?_, hpixels⟩, absurd rfl⟩
    intro q hq hgen hseq
    exact List.inj_on_of_nodup_map S₂.distinct hq (published_mono hrest hp₁)
      (Prod.ext hgen hseq)
  · exact ⟨fun h => absurd h hne, fun _ => hdest⟩

/-- A frame of three bytes. -/
def sampleFormat : Format := ⟨1, 1⟩

def samplePlanes : Planes := ⟨fun i => UInt8.ofNat (10 + i), 1, fun _ => 30, 1⟩

def sampleNames (n : Nat) : String := String.ofList (List.replicate n 'a')

/-- The memory is cleared, a stream begins, and a frame is published and handed out. -/
def sampleLease : List Event :=
  List.replicate 15 (Event.store 0) ++ [Event.unlock, .beginStream] ++
    List.replicate 15 (Event.store 0) ++ [Event.unlock, .publish samplePlanes] ++
    List.replicate 6 (Event.store 0) ++ [Event.unlock, .next "" 0]

/-- A frame is handed out and copied. -/
theorem copy_exact_sample :
    ∃ t u b b₁ b₂ o r, Run sampleFormat sampleNames (.initial sampleFormat fun _ => .word 7) t b ∧
      (⟨0, 0, 1⟩ : Descriptor) ∈ b.delivered ∧
      step sampleFormat sampleNames b (.copy 0 0 1 3 fun _ => 9) = some (o, b₁) ∧
      Run sampleFormat sampleNames b₁ u b₂ ∧ b₂.readers[b.readers.length]? = some r ∧
      r.phase = .returned 0 ∧
      ∃ p ∈ b₂.published, p.generation = 0 ∧ p.sequence = 1 ∧
        ∀ i < sampleFormat.bytes, r.destination i = p.pixels i := by
  have hplay : ((play (step sampleFormat sampleNames) (.initial sampleFormat fun _ => .word 7)
      sampleLease).bind fun x =>
      (step sampleFormat sampleNames x.2 (.copy 0 0 1 3 fun _ => 9)).bind fun y =>
      (play (step sampleFormat sampleNames) y.2 (List.replicate 7 (.read 0 0))).map fun z =>
        (x.2.delivered, z.2.readers[x.2.readers.length]?.map Reader.phase)) =
    some ([⟨0, 0, 1⟩], some (.returned 0)) := by decide +kernel
  obtain ⟨⟨t, b⟩, ht, hplay⟩ := Option.bind_eq_some_iff.mp hplay
  obtain ⟨⟨o, b₁⟩, hstart, hplay⟩ := Option.bind_eq_some_iff.mp hplay
  obtain ⟨⟨u, b₂⟩, hu, hplay⟩ := Option.map_eq_some_iff.mp hplay
  obtain ⟨hd, hphase⟩ := Prod.ext_iff.mp hplay
  obtain ⟨r, hr, hphase⟩ := Option.map_eq_some_iff.mp hphase
  have hmem : (⟨0, 0, 1⟩ : Descriptor) ∈ b.delivered := by
    rw [show b.delivered = [⟨0, 0, 1⟩] from hd]
    exact List.mem_singleton_self _
  obtain ⟨hok, -⟩ := copy_exact sampleFormat sampleNames _ (Steps.of_play ht) hmem hstart
    (Steps.of_play hu) hr hphase
  obtain ⟨p, hp, hgen, hseq, -, hpixels⟩ := hok rfl
  exact ⟨t, u, b, b₁, b₂, o, r, Steps.of_play ht, hmem, hstart, Steps.of_play hu, hr, hphase, p, hp,
    hgen, hseq, hpixels⟩

end Ashacky.Camera
