import Ashacky.Camera.Service

/-!
# Camera — whose frames

What holds over every run of the camera service.

* `Coherent`: an output is active only while the buffer has the stream that was begun for it.
* `frames_captured`: every published frame was captured, in an active session, by the output whose
  stream it is published in, while no other was begun.
* `service_serial`: the buffer is used as `Camera.Lease` assumes, so that its discipline holds.
* `capture_leased`: but for a moment at its start and at its end, the camera runs only with a lease,
  which ends five seconds after the last frame was taken.
-/

namespace Ashacky.Camera.Service
open Ashacky.Support
open Ashacky.Control (Json Object)

/-- What happened, with what the buffer did and what was shown. -/
abbrev History := List (Act × (Option (Event × Output) × List Shown))

/-- A stream was begun for the camera, and no other since. -/
def Latest (camera generation : Nat) (t : History) : Prop :=
  ∃ u x v, t = u ++ x :: v ∧ Shown.began camera generation ∈ x.2.2 ∧
    ∀ y ∈ v, ∀ c g, Shown.began c g ∉ y.2.2

/-- The camera's output gave a sample with these planes, for the stream that was then begun. -/
def Sampled (F : Format) (camera generation : Nat) (planes : Planes) (t : History) : Prop :=
  ∃ u y v pixel, t = u ++ y :: v ∧ Latest camera generation u ∧
    y.1 = .capture camera true (some pixel) ∧ pixel.fits F ∧ pixel.planes = some planes

section History
variable {F : Format} {camera generation : Nat} {planes : Planes} {t : History}

/-- A stream stays the latest until another begins. -/
theorem Latest.snoc (l : Latest camera generation t)
    {x : Act × (Option (Event × Output) × List Shown)} (hx : ∀ c g, Shown.began c g ∉ x.2.2) :
    Latest camera generation (t ++ [x]) := by
  obtain ⟨u, y, v, rfl, hy, hv⟩ := l
  refine ⟨u, y, v ++ [x], by simp, hy, fun z hz => ?_⟩
  rw [List.mem_append, List.mem_singleton] at hz
  obtain hz | rfl := hz
  · exact hv z hz
  · exact hx

/-- A sample that was given stays given. -/
theorem Sampled.snoc (s : Sampled F camera generation planes t)
    (x : Act × (Option (Event × Output) × List Shown)) :
    Sampled F camera generation planes (t ++ [x]) := by
  obtain ⟨u, y, v, pixel, rfl, s⟩ := s
  exact ⟨u, y, v ++ [x], pixel, by simp, s⟩

end History

/-! ### The buffer -/

section Buffer
variable {F : Format} {uuidString : Nat → String} {b b' : CameraBuffer} {e : Event} {o : Output}

/-- Its stream is that of `begin` until `end`, and its frames are those of `publish`. -/
theorem buffer_kept (h : Camera.step F uuidString b e = some (o, b')) (hbegin : e ≠ .beginStream)
    (hend : e ≠ .endStream) (hpublish : ∀ planes, e ≠ .publish planes) :
    b'.stream = b.stream ∧ b'.generation = b.generation ∧ b'.published = b.published := by
  cases step_cases h with
  | begins => exact absurd rfl hbegin
  | ends => exact absurd rfl hend
  | publishes planes | fails planes => exact absurd rfl (hpublish planes)
  | stores | unlocks | waits | answers | wakes | stalls | copies | reads | same =>
      exact ⟨rfl, rfl, rfl⟩

/-- Publishing keeps the stream, and adds at most the pixels of the planes to it. -/
theorem publish_kept {planes : Planes}
    (h : Camera.step F uuidString b (.publish planes) = some (o, b')) :
    b'.stream = b.stream ∧ b'.generation = b.generation ∧ ∀ p ∈ b'.published,
      p ∈ b.published ∨ b.generation = some p.generation ∧ p.pixels = planes.pixels F := by
  cases step_cases h with
  | publishes _ id generation slot hl hs hg =>
      refine ⟨rfl, rfl, fun p hp => ?_⟩
      rw [List.mem_append, List.mem_singleton] at hp
      obtain hp | rfl := hp
      · exact .inl hp
      · exact .inr ⟨hg, rfl⟩
  | fails | same => exact ⟨rfl, rfl, fun p hp => .inl hp⟩

/-- The end of a stream publishes nothing. -/
theorem endStream_kept (h : Camera.step F uuidString b .endStream = some (o, b')) :
    b'.published = b.published := by
  cases step_cases h <;> rfl

/-- A stream begins under a new number, and nothing is published for it yet. -/
theorem beginStream_kept (h : Camera.step F uuidString b .beginStream = some (o, b')) :
    b'.stream = some b.drawn ∧ b'.generation = some b.drawn ∧ b'.published = b.published := by
  obtain ⟨-, h⟩ := Option.ite_none_right_eq_some.mp h
  cases h
  exact ⟨rfl, rfl, rfl⟩

end Buffer

/-! ### What a step can be -/

/-- The task leaves the stream and the output alone. -/
def Task.steady : Task → Bool
  | .idle | .asking .. | .waiting _ | .served .. | .stopping .. => true
  | _ => false

/-- The time that a step takes. -/
def Act.passes : Act → Nat
  | .tick milliseconds => milliseconds
  | _ => 0

/-- The request that is answered when `stop` is over, and its answer. -/
def Task.owed : Task → Option (Nat × Object)
  | .stopping _ answer | .released answer | .halting answer | .clearing answer | .ending answer => answer
  | _ => none

/-- A step that answers requests only. -/
def Silent (shown : List Shown) : Prop :=
  ∀ x ∈ shown, ∃ n answer, x = Shown.answer n answer

/-- An answer that names no stream: it hands out no frame, and starts no camera. -/
def Plain (answer : Object) : Prop := answer.lookup "stream" = none

/-- The answers of a step name no stream. -/
def AllPlain (shown : List Shown) : Prop :=
  ∀ n answer, Shown.answer n answer ∈ shown → Plain answer

/-- What a step can be: with what the buffer does, and what is shown. -/
inductive Turn (F : Format) (uuidString : Nat → String) (s : CameraService) :
    Act → Option (Event × Output) → List Shown → CameraService → Prop where
  | request (w : World) (value : Object) {task : Task} {made : Nat} {shown : List Shown}
      (hidle : s.task = .idle) (silent : Silent shown) (plain : AllPlain shown)
      (htask : task.steady = true ∨ s.session = none ∧ ∃ n camera, task = .making n camera)
      (howed : ∀ a ∈ task.owed, Plain a.2) :
      Turn F uuidString s (.request w value) none shown
        { s with requests := s.requests + 1, task := task, made := made }
  | makes {n camera : Nat} {o : Output} {b : CameraBuffer} (htask : s.task = .making n camera)
      (hb : Camera.step F uuidString s.buffer .beginStream = some (o, b)) :
      Turn F uuidString s .proceed (some (.beginStream, o)) [.began camera s.buffer.drawn]
        { s with
          buffer := b
          holder := some .control
          task := .beginning n camera (uuidString s.buffer.drawn) }
  | begins {n camera : Nat} {id : String} (htask : s.task = .begun n camera id)
      (hframes : s.frames = .idle) :
      Turn F uuidString s .proceed none []
        { s with
          stream := some id
          session := some camera
          activeOutput := some camera
          count := 0
          task := .starting n camera id }
  | starts {n camera : Nat} {id : String} (htask : s.task = .starting n camera id) :
      Turn F uuidString s .proceed none [] { s with running := true, task := .renewing n id }
  | renews {n : Nat} {id : String} (htask : s.task = .renewing n id) :
      Turn F uuidString s .proceed none [.answer n (started F id)]
        { s with lease := some (s.now + 5000), task := .idle }
  | nexts {act : Act} {e : Event} {o : Output} {b : CameraBuffer} {n : Nat} (hact : act.passes = 0)
      (htask : (∃ id ack, s.task = .asking n id ack ∧ e = .next id ack) ∨
        s.task = .waiting n ∧ ∃ timeout, e = .wake 0 timeout)
      (hb : Camera.step F uuidString s.buffer e = some (o, b)) :
      Turn F uuidString s act (some (e, o)) [] { s with buffer := b, task := .next n o }
  | serves {n : Nat} {reply : Reply} (htask : s.task = .served n reply) :
      Turn F uuidString s .proceed none [.answer n (frameObject reply)]
        { s with lease := some (s.now + 5000), task := .idle }
  | passes {expected : Option Nat} {answer : Option (Nat × Object)}
      (htask : s.task = .stopping expected answer) :
      Turn F uuidString s .proceed none (CameraService.answers answer) { s with task := .idle }
  | releases {expected : Option Nat} {answer : Option (Nat × Object)}
      (htask : s.task = .stopping expected answer) (hframes : s.frames = .idle) :
      Turn F uuidString s .proceed none []
        { s with activeOutput := none, task := .released answer }
  | cancels {answer : Option (Nat × Object)} (htask : s.task = .released answer) :
      Turn F uuidString s .proceed none [] { s with lease := none, task := .halting answer }
  | halts {answer : Option (Nat × Object)} (htask : s.task = .halting answer) :
      Turn F uuidString s .proceed none []
        { s with
          running := false
          session := none
          stream := none
          task := .clearing answer }
  | clears {answer : Option (Nat × Object)} {o : Output} {b : CameraBuffer}
      (htask : s.task = .clearing answer)
      (hb : Camera.step F uuidString s.buffer .endStream = some (o, b)) :
      Turn F uuidString s .proceed (some (.endStream, o)) []
        { s with buffer := b, holder := some .control, task := .ending answer }
  | stops {act : Act} {expected : Option Nat} {blocks : List (Option Nat)} (hact : act.passes = 0)
      (htask : s.task = .idle) :
      Turn F uuidString s act none []
        { s with blocks := blocks, task := .stopping expected none }
  | queues {act : Act} {blocks : List (Option Nat)} (hact : act.passes = 0) :
      Turn F uuidString s act none [] { s with blocks := blocks }
  | captures {output : Nat} {pixel : Pixel} {planes : Planes}
      (ha : s.activeOutput = some output) (hfits : pixel.fits F = true)
      (hplanes : pixel.planes = some planes) :
      Turn F uuidString s (.capture output true (some pixel)) none []
        { s with frames := .holding output planes }
  | publishes {output : Nat} {planes : Planes} {o : Output} {b : CameraBuffer} {frames : Frames}
      {holder : Option Thread} {count : Nat} (hframes : s.frames = .holding output planes)
      (hb : Camera.step F uuidString s.buffer (.publish planes) = some (o, b))
      (hafter : ∀ c planes, frames ≠ .holding c planes) :
      Turn F uuidString s .publish (some (.publish planes, o))
        (CameraService.news output s.buffer b)
        { s with buffer := b, frames := frames, holder := holder, count := count }
  | stores {act : Act} {e : Event} {o : Output} {b : CameraBuffer} (hact : act.passes = 0)
      (hb : Camera.step F uuidString s.buffer e = some (o, b))
      (he : (∃ k, e = .store k) ∨ (∃ slot g q n d, e = .copy slot g q n d) ∨ ∃ r k, e = .read r k) :
      Turn F uuidString s act (some (e, o)) [] { s with buffer := b }
  | returns {o : Output} {b : CameraBuffer}
      (hb : Camera.step F uuidString s.buffer .unlock = some (o, b)) :
      Turn F uuidString s .unlock (some (.unlock, o))
        ({ s with buffer := b : CameraService }.returns).1
        ({ s with buffer := b : CameraService }.returns).2
  | ticks (milliseconds : Nat) :
      Turn F uuidString s (.tick milliseconds) none [] { s with now := s.now + milliseconds }

section Turn
variable {F : Format} {uuidString : Nat → String} {s s' : CameraService}
  {done : Option (Event × Output)} {shown : List Shown}

theorem silent_nil : Silent [] := List.forall_mem_nil _

/-- An answer is silent. -/
theorem silent_answer (n : Nat) (answer : Object) : Silent [.answer n answer] :=
  List.forall_mem_singleton.mpr ⟨n, answer, rfl⟩

theorem silent_answers (answer : Option (Nat × Object)) : Silent (CameraService.answers answer) := by
  cases answer with
  | none => exact silent_nil
  | some a => exact silent_answer a.1 a.2

/-- A silent step begins no stream. -/
theorem Silent.not_began (h : Silent shown) (c g : Nat) : Shown.began c g ∉ shown := fun hmem => by
  obtain ⟨_, _, heq⟩ := h _ hmem
  cases heq

/-- Waiting for a frame leaves the stream and the output alone. -/
theorem next_steady (n : Nat) (o : Output) : (Task.next n o).steady = true := by
  cases o with
  | reply answer => cases answer <;> rfl
  | _ => rfl

/-- A failure names no stream. -/
theorem plain_failed (error : String) : Plain (failed error) := rfl

theorem plain_ok : Plain [("ok", .bool true)] := rfl

theorem allPlain_nil : AllPlain [] := fun _ _ h => absurd h List.not_mem_nil

/-- A plain answer of a task names no stream. -/
theorem allPlain_answers {answer : Option (Nat × Object)} (h : ∀ a ∈ answer, Plain a.2) :
    AllPlain (CameraService.answers answer) := by
  intro n value hmem
  obtain ⟨a, ha, heq⟩ := List.mem_map.mp hmem
  cases heq
  exact h a (Option.mem_toList.mp ha)

/-- A failed request names no stream. -/
theorem allPlain_failed (n : Nat) (error : String) : AllPlain [.answer n (failed error)] := by
  have hanswer : ∀ a ∈ some (n, failed error), Plain a.2 := by
    rintro _ ⟨⟩
    exact plain_failed error
  exact allPlain_answers hanswer

/-- What `next` leaves to answer is its error. -/
theorem next_owed (n : Nat) (o : Output) : ∀ a ∈ (Task.next n o).owed, Plain a.2 := by
  intro a ha
  cases o with
  | reply answer =>
      cases answer with
      | error error =>
          cases ha
          exact plain_failed _
      | ok reply => cases ha
  | _ => cases ha

/-- A request of the client is an allowed turn. -/
theorem request_turn (hidle : s.task = .idle) (w : World) (value : Object) :
    Turn F uuidString s (.request w value) none (s.request w value).1 (s.request w value).2 := by
  -- a request that is refused at once leaves the control queue idle
  have hrefuse : ∀ error, Turn F uuidString s (.request w value) none
      [.answer s.requests (failed error)] { s with requests := s.requests + 1 } := fun error =>
    .request w value hidle (silent_answer _ _) (allPlain_failed _ _) (.inl (by rw [hidle]; rfl))
      (by rw [hidle]; rintro _ ⟨⟩)
  rw [CameraService.request]
  dsimp only
  split
  · exact hrefuse _
  split
  · exact .request w value hidle silent_nil allPlain_nil (.inl rfl)
      (by rintro _ ⟨⟩; exact plain_failed _)
  split
  · split
    · exact hrefuse _
    · rename_i hsession
      split
      · exact hrefuse _
      · exact .request w value hidle silent_nil allPlain_nil
          (.inr ⟨by simpa using hsession, _, _, rfl⟩) (by rintro _ ⟨⟩)
  split
  · exact hrefuse _
  split
  · exact hrefuse _
  split
  · exact .request w value hidle silent_nil allPlain_nil (.inl rfl) (by rintro _ ⟨⟩; exact plain_ok)
  split
  · split
    · exact .request w value hidle silent_nil allPlain_nil (.inl rfl) (by rintro _ ⟨⟩)
    · exact hrefuse _
  · exact hrefuse _

/-- A step of the control queue is an allowed turn. -/
theorem proceed_turn (h : s.proceed F uuidString = some (done, shown, s')) :
    Turn F uuidString s .proceed done shown s' := by
  cases htask : s.task with
  | idle | beginning | waiting | ending => simp [CameraService.proceed, htask] at h
  | making n camera =>
      simp only [CameraService.proceed, htask, Option.map_eq_some_iff] at h
      obtain ⟨⟨o, b⟩, hb, h⟩ := h
      cases h
      exact .makes htask hb
  | begun n camera id =>
      simp only [CameraService.proceed, htask] at h
      split at h
      · cases h
        exact .begins htask ‹_›
      · cases h
  | starting n camera id =>
      simp only [CameraService.proceed, htask] at h
      cases h
      exact .starts htask
  | renewing n id =>
      simp only [CameraService.proceed, htask] at h
      cases h
      exact .renews htask
  | asking n id ack =>
      simp only [CameraService.proceed, htask, Option.map_eq_some_iff] at h
      obtain ⟨⟨o, b⟩, hb, h⟩ := h
      cases h
      exact .nexts rfl (.inl ⟨id, ack, htask, rfl⟩) hb
  | served n reply =>
      simp only [CameraService.proceed, htask] at h
      cases h
      exact .serves htask
  | stopping expected answer =>
      simp only [CameraService.proceed, htask] at h
      split at h
      · split at h
        · cases h
          exact .passes htask
        · cases h
          exact .releases htask ‹_›
      · cases h
  | released answer =>
      simp only [CameraService.proceed, htask] at h
      cases h
      exact .cancels htask
  | halting answer =>
      simp only [CameraService.proceed, htask] at h
      cases h
      exact .halts htask
  | clearing answer =>
      simp only [CameraService.proceed, htask, Option.map_eq_some_iff] at h
      obtain ⟨⟨o, b⟩, hb, h⟩ := h
      cases h
      exact .clears htask hb

/-- A captured sample is an allowed turn. -/
theorem capture_turn (output : Nat) (active : Bool) (pixel : Option Pixel) :
    Turn F uuidString s (.capture output active pixel) none [] (s.capture F output active pixel) := by
  rw [CameraService.capture]
  split
  · rename_i ha
    split
    · exact .queues rfl
    · rename_i p hp
      obtain ⟨rfl, hfits⟩ := Option.filter_eq_some_iff.mp hp
      rw [Bool.and_eq_true] at hfits
      obtain ⟨rfl, hfits⟩ := hfits
      split
      · exact .queues rfl
      · exact .captures ha hfits ‹_›
  · exact .queues rfl

/-- **What a step is.** -/
theorem step_turn {act : Act} (h : s.step F uuidString act = some (done, shown, s')) :
    Turn F uuidString s act done shown s' := by
  cases act with
  | request world value =>
      rw [CameraService.step] at h
      split at h
      · obtain ⟨rfl, rfl, rfl⟩ : none = done ∧ (s.request world value).1 = shown ∧
            (s.request world value).2 = s' := by simpa [Prod.ext_iff] using h
        exact request_turn ‹_› world value
      · cases h
  | proceed => exact proceed_turn h
  | wake timeout =>
      rw [CameraService.step] at h
      split at h
      · obtain ⟨⟨o, b⟩, hb, h⟩ := Option.map_eq_some_iff.mp h
        cases h
        exact .nexts rfl (.inr ⟨‹_›, timeout, rfl⟩) hb
      · cases h
  | expire =>
      rw [CameraService.step] at h
      split at h
      · split at h
        · cases h
          exact .stops rfl ‹_›
        · cases h
      · cases h
  | block index =>
      rw [CameraService.step] at h
      split at h
      · obtain ⟨expected, -, h⟩ := Option.map_eq_some_iff.mp h
        cases h
        exact .stops rfl ‹_›
      · cases h
  | suspend =>
      cases h
      exact .queues rfl
  | capture output active pixel =>
      rw [CameraService.step] at h
      split at h
      · cases h
        exact capture_turn output active pixel
      · cases h
  | publish =>
      rw [CameraService.step] at h
      split at h
      · obtain ⟨⟨o, b⟩, hb, h⟩ := Option.map_eq_some_iff.mp h
        dsimp only at h
        split at h
        · cases h
          exact .publishes ‹_› hb (by rintro _ _ ⟨⟩)
        · cases h
          exact .publishes ‹_› hb (by rintro _ _ ⟨⟩)
      · cases h
  | store k =>
      rw [CameraService.step] at h
      obtain ⟨⟨o, b⟩, hb, h⟩ := Option.map_eq_some_iff.mp h
      cases h
      exact .stores rfl hb (.inl ⟨k, rfl⟩)
  | copy slot generation sequence bytes destination =>
      rw [CameraService.step] at h
      obtain ⟨⟨o, b⟩, hb, h⟩ := Option.map_eq_some_iff.mp h
      cases h
      exact .stores rfl hb (.inr (.inl ⟨_, _, _, _, _, rfl⟩))
  | read reader k =>
      rw [CameraService.step] at h
      obtain ⟨⟨o, b⟩, hb, h⟩ := Option.map_eq_some_iff.mp h
      cases h
      exact .stores rfl hb (.inr (.inr ⟨_, _, rfl⟩))
  | unlock =>
      rw [CameraService.step] at h
      obtain ⟨⟨o, b⟩, hb, h⟩ := Option.map_eq_some_iff.mp h
      obtain ⟨rfl, rfl, rfl⟩ : some (Event.unlock, o) = done ∧
          ({ s with buffer := b : CameraService }.returns).1 = shown ∧
          ({ s with buffer := b : CameraService }.returns).2 = s' := by
        simpa [Prod.ext_iff] using h
      exact .returns hb
  | tick milliseconds =>
      cases h
      exact .ticks milliseconds

end Turn

/-! ### The active output -/

/-- The output is not active while the control queue is at it. -/
def Task.off : Task → Bool
  | .making .. | .beginning .. | .begun .. | .released _ | .halting _ | .clearing _ | .ending _ => true
  | _ => false

/-- The output is not active any more, but the session is still there. -/
def Task.ceasing : Task → Bool
  | .released _ | .halting _ => true
  | _ => false

/-- A task that leaves the output alone is not at it. -/
theorem Task.not_off {task : Task} (h : task.steady = true) : task.off = false := by
  cases task <;> first | rfl | cases h

/-- An output is active only in the stream that was begun for it, and what it gives is published
there. -/
structure Coherent (F : Format) (uuidString : Nat → String) (s : CameraService) (t : History) :
    Prop where
  active : ∀ c, s.activeOutput = some c →
    ∃ g, s.buffer.stream = some g ∧ s.buffer.generation = some g ∧ Latest c g t
  off : s.task.off = true → s.activeOutput = none
  begun : ∀ n c id, s.task = .beginning n c id ∨ s.task = .begun n c id →
    ∃ g, s.buffer.stream = some g ∧ s.buffer.generation = some g ∧ Latest c g t
  session : s.activeOutput = s.session ∨ s.task.ceasing = true
  holding : ∀ c planes, s.frames = .holding c planes → s.activeOutput = some c ∧
    ∃ g, s.buffer.generation = some g ∧ Sampled F c g planes t
  published : ∀ p ∈ s.buffer.published,
    ∃ c planes, Sampled F c p.generation planes t ∧ p.pixels = planes.pixels F

section Coherent
variable {F : Format} {uuidString : Nat → String} {s s' : CameraService} {t : History}
  {x : Act × (Option (Event × Output) × List Shown)}

/-- At the start no output is active. -/
theorem coherent_initial (memory : Memory) :
    Coherent F uuidString (.initial F memory) [] where
  active := by rintro _ ⟨⟩
  off := by rintro ⟨⟩
  begun := by rintro _ _ _ (⟨⟨⟩⟩ | ⟨⟨⟩⟩)
  session := .inl rfl
  holding := by rintro _ _ ⟨⟩
  published := by rintro _ ⟨⟩

/-- A step that keeps the stream and the output, and begins nothing. -/
theorem Coherent.keep (C : Coherent F uuidString s t) (hx : ∀ c g, Shown.began c g ∉ x.2.2)
    (hbuffer : s'.buffer.stream = s.buffer.stream ∧ s'.buffer.generation = s.buffer.generation ∧
      s'.buffer.published = s.buffer.published)
    (hactive : s'.activeOutput = s.activeOutput) (hsession : s'.session = s.session)
    (hframes : ∀ c planes, s'.frames = .holding c planes → s.frames = .holding c planes)
    (htask : s'.task = s.task ∨ s'.task.off = false ∧ s.task.ceasing = false) :
    Coherent F uuidString s' (t ++ [x]) := by
  obtain ⟨hstream, hgeneration, hpublished⟩ := hbuffer
  refine ⟨fun c hc => ?_, fun hoff => ?_, fun n c id hbegun => ?_, ?_, fun c planes hc => ?_,
    fun p hp => ?_⟩
  · obtain ⟨g, hs, hg, l⟩ := C.active c (hactive.symm.trans hc)
    exact ⟨g, hstream.trans hs, hgeneration.trans hg, l.snoc hx⟩
  · obtain htask | ⟨htask, -⟩ := htask
    · rw [htask] at hoff
      exact hactive.trans (C.off hoff)
    · cases htask.symm.trans hoff
  · obtain htask | ⟨htask, -⟩ := htask
    · rw [htask] at hbegun
      obtain ⟨g, hs, hg, l⟩ := C.begun n c id hbegun
      exact ⟨g, hstream.trans hs, hgeneration.trans hg, l.snoc hx⟩
    · obtain h | h := hbegun <;> rw [h] at htask <;> cases htask
  · obtain htask | ⟨-, htask⟩ := htask
    · rw [hactive, hsession, htask]
      exact C.session
    · rw [hactive, hsession]
      exact .inl (C.session.resolve_right (Bool.not_eq_true _ ▸ htask))
  · obtain ⟨hc, g, hg, S⟩ := C.holding c planes (hframes c planes hc)
    exact ⟨hactive.trans hc, g, hgeneration.trans hg, S.snoc x⟩
  · rw [hpublished] at hp
    obtain ⟨c, planes, S, hpixels⟩ := C.published p hp
    exact ⟨c, planes, S.snoc x, hpixels⟩

/-- Outside of the end of a capture, the active output is that of the session. -/
theorem Coherent.same (C : Coherent F uuidString s t) (h : s.task.ceasing = false) :
    s.activeOutput = s.session :=
  C.session.resolve_right (by rw [h]; exact Bool.false_ne_true)

/-- No call of `captureOutput` is under way while the output is not active. -/
theorem Coherent.not_holding (C : Coherent F uuidString s t) (ha : s.activeOutput = none) (c : Nat)
    (planes : Planes) : s.frames ≠ .holding c planes := fun h => by
  cases ha.symm.trans (C.holding c planes h).1

end Coherent

section Steps
variable {F : Format} {uuidString : Nat → String} {s s' : CameraService} {t : History}

/-- The method that had the buffer's lock returns. -/
theorem coherent_returns (C : Coherent F uuidString s t) {b : CameraBuffer} {o : Output}
    (h : Camera.step F uuidString s.buffer .unlock = some (o, b)) :
    Coherent F uuidString ({ s with buffer := b : CameraService }.returns).2
      (t ++ [(.unlock, some (.unlock, o), ({ s with buffer := b : CameraService }.returns).1)]) := by
  have hb := buffer_kept h (by rintro ⟨⟩) (by rintro ⟨⟩) (by rintro _ ⟨⟩)
  rw [CameraService.returns]
  split
  · rename_i n camera id hholder htask
    have K : Coherent F uuidString { s with buffer := b, holder := none }
        (t ++ [(.unlock, some (.unlock, o), [])]) :=
      C.keep (by simp) hb rfl rfl (fun _ _ h => h) (.inl rfl)
    exact { K with
      off := fun _ => C.off (by rw [show s.task = _ from htask]; rfl)
      begun := by
        rintro _ _ _ (⟨⟨⟩⟩ | ⟨⟨⟩⟩)
        exact K.begun n camera id (.inl htask)
      session := .inl (C.same (by rw [show s.task = _ from htask]; rfl)) }
  · rename_i htask
    exact C.keep (silent_answers _).not_began hb rfl rfl (fun _ _ h => h)
      (.inr ⟨rfl, by rw [show s.task = _ from htask]; rfl⟩)
  · exact C.keep (by simp) hb rfl rfl (by rintro _ _ ⟨⟩) (.inl rfl)
  · exact C.keep (by simp) hb rfl rfl (fun _ _ h => h) (.inl rfl)

/-- What is published was held. -/
theorem coherent_publish (C : Coherent F uuidString s t) {output : Nat} {planes : Planes}
    (hframes : s.frames = .holding output planes) {b : CameraBuffer} {o : Output}
    (h : Camera.step F uuidString s.buffer (.publish planes) = some (o, b)) {frames : Frames}
    (hafter : ∀ c planes, frames ≠ .holding c planes) (holder : Option Thread) (count : Nat) :
    Coherent F uuidString { s with buffer := b, frames := frames, holder := holder, count := count }
      (t ++ [(.publish, some (.publish planes, o), CameraService.news output s.buffer b)]) := by
  obtain ⟨hs, hg, hp⟩ := publish_kept h
  obtain ⟨ha, g, hgen, S⟩ := C.holding output planes hframes
  have hx : ∀ c g, Shown.began c g ∉ CameraService.news output s.buffer b := fun c g hmem => by
    obtain ⟨p, -, hp⟩ := List.mem_map.mp hmem
    cases hp
  have K : Coherent F uuidString { s with frames := frames, holder := holder, count := count }
      (t ++ [(.publish, some (.publish planes, o), CameraService.news output s.buffer b)]) :=
    C.keep hx ⟨rfl, rfl, rfl⟩ rfl rfl (fun c planes h => absurd h (hafter c planes)) (.inl rfl)
  exact
    { active := fun c hc => by
        obtain ⟨g, hs', hg', l⟩ := K.active c hc
        exact ⟨g, hs.trans hs', hg.trans hg', l⟩
      off := K.off
      begun := fun n c id h => by
        obtain ⟨g, hs', hg', l⟩ := K.begun n c id h
        exact ⟨g, hs.trans hs', hg.trans hg', l⟩
      session := K.session
      holding := fun c planes h => absurd h (hafter c planes)
      published := fun p hp' => by
        obtain hold | ⟨hpg, hpixels⟩ := hp p hp'
        · exact K.published p hold
        · cases hgen.symm.trans hpg
          exact ⟨output, planes, S.snoc _, hpixels⟩ }

/-- What there is to say of a step that ends with no active output. -/
theorem Coherent.idle (C : Coherent F uuidString s t)
    {x : Act × (Option (Event × Output) × List Shown)} (ha : s'.activeOutput = none)
    (hbegun : ∀ n c id, s'.task ≠ .beginning n c id ∧ s'.task ≠ .begun n c id)
    (hsession : s'.session = none ∨ s'.task.ceasing = true)
    (hframes : ∀ c planes, s'.frames ≠ .holding c planes)
    (hpublished : s'.buffer.published = s.buffer.published) :
    Coherent F uuidString s' (t ++ [x]) where
  active c hc := by cases ha.symm.trans hc
  off _ := ha
  begun n c id h := (h.elim (hbegun n c id).1 (hbegun n c id).2).elim
  session := hsession.imp (fun h => ha.trans h.symm) id
  holding c planes hc := absurd hc (hframes c planes)
  published p hp := by
    obtain ⟨c, planes, S, hpixels⟩ := C.published p (hpublished ▸ hp)
    exact ⟨c, planes, S.snoc x, hpixels⟩

/-- **Every step keeps the outputs and the streams together.** -/
theorem coherent_step {act : Act} {o : Option (Event × Output) × List Shown}
    (C : Coherent F uuidString s t) (h : s.Step F uuidString act o s') :
    Coherent F uuidString s' (t ++ [(act, o)]) := by
  obtain ⟨done, shown⟩ := o
  have hquiet : ∀ c g, Shown.began c g ∉ ([] : List Shown) := fun _ _ => List.not_mem_nil
  cases step_turn h with
  | request w value hidle silent plain htask =>
      have hne : s.task.ceasing = false := by rw [hidle]; rfl
      obtain hsteady | ⟨hsession, n, camera, rfl⟩ := htask
      · exact C.keep silent.not_began ⟨rfl, rfl, rfl⟩ rfl rfl (fun _ _ h => h)
          (.inr ⟨Task.not_off hsteady, hne⟩)
      · -- There is no session, so no output is active.
        have ha : s.activeOutput = none := (C.same hne).trans hsession
        exact C.idle ha (fun _ _ _ => ⟨by rintro ⟨⟩, by rintro ⟨⟩⟩) (.inl hsession)
          (C.not_holding ha) rfl
  | @makes n camera o b htask hb =>
      obtain ⟨hs, hg, hp⟩ := beginStream_kept hb
      -- The stream begins before its output is active.
      have ha : s.activeOutput = none := C.off (by rw [htask]; rfl)
      have hnew : Latest camera s.buffer.drawn
          (t ++ [(Act.proceed, some (Event.beginStream, o), [Shown.began camera s.buffer.drawn])]) :=
        ⟨t, _, [], rfl, List.mem_singleton_self _, List.forall_mem_nil _⟩
      have hsession : s.session = none := (C.same (by rw [htask]; rfl)).symm.trans ha
      exact
        { active := fun c hc => by cases ha.symm.trans hc
          off := fun _ => ha
          begun := by
            rintro _ _ _ (⟨⟨⟩⟩ | ⟨⟨⟩⟩)
            exact ⟨_, hs, hg, hnew⟩
          session := .inl (ha.trans hsession.symm)
          holding := fun c planes hc => absurd hc (C.not_holding ha c planes)
          published := fun p hp' => by
            obtain ⟨c, planes, S, hpixels⟩ := C.published p (hp ▸ hp')
            exact ⟨c, planes, S.snoc _, hpixels⟩ }
  | @begins n camera id htask hframes =>
      obtain ⟨g, hs, hg, l⟩ := C.begun n camera id (.inr htask)
      exact
        { active := by
            rintro _ ⟨⟩
            exact ⟨g, hs, hg, l.snoc hquiet⟩
          off := by rintro ⟨⟩
          begun := by rintro _ _ _ (⟨⟨⟩⟩ | ⟨⟨⟩⟩)
          session := .inl rfl
          holding := fun c planes hc => by cases hframes.symm.trans hc
          published := fun p hp => by
            obtain ⟨c, planes, S, hpixels⟩ := C.published p hp
            exact ⟨c, planes, S.snoc _, hpixels⟩ }
  | starts htask =>
      exact C.keep hquiet ⟨rfl, rfl, rfl⟩ rfl rfl (fun _ _ h => h) (.inr ⟨rfl, by rw [htask]; rfl⟩)
  | renews htask | serves htask =>
      exact C.keep (silent_answer _ _).not_began ⟨rfl, rfl, rfl⟩ rfl rfl (fun _ _ h => h)
        (.inr ⟨rfl, by rw [htask]; rfl⟩)
  | @nexts _ e o b n hact htask hb =>
      have hne : s.task.ceasing = false := by
        obtain ⟨id, ack, htask, -⟩ | ⟨htask, -⟩ := htask <;> rw [htask] <;> rfl
      have hkept : e ≠ .beginStream ∧ e ≠ .endStream ∧ ∀ planes, e ≠ .publish planes := by
        obtain ⟨id, ack, -, rfl⟩ | ⟨-, timeout, rfl⟩ := htask <;>
          exact ⟨by rintro ⟨⟩, by rintro ⟨⟩, by rintro _ ⟨⟩⟩
      exact C.keep hquiet (buffer_kept hb hkept.1 hkept.2.1 hkept.2.2) rfl rfl (fun _ _ h => h)
        (.inr ⟨Task.not_off (next_steady n o), hne⟩)
  | @passes expected answer htask =>
      exact C.keep (silent_answers answer).not_began ⟨rfl, rfl, rfl⟩ rfl rfl (fun _ _ h => h)
        (.inr ⟨rfl, by rw [htask]; rfl⟩)
  | @releases expected answer htask hframes =>
      exact C.idle rfl (fun _ _ _ => ⟨by rintro ⟨⟩, by rintro ⟨⟩⟩) (.inr rfl)
        (fun _ _ h => by cases hframes.symm.trans h) rfl
  | cancels htask =>
      have ha : s.activeOutput = none := C.off (by rw [htask]; rfl)
      exact C.idle ha (fun _ _ _ => ⟨by rintro ⟨⟩, by rintro ⟨⟩⟩) (.inr rfl) (C.not_holding ha) rfl
  | halts htask =>
      have ha : s.activeOutput = none := C.off (by rw [htask]; rfl)
      exact C.idle ha (fun _ _ _ => ⟨by rintro ⟨⟩, by rintro ⟨⟩⟩) (.inl rfl) (C.not_holding ha) rfl
  | clears htask hb =>
      have ha : s.activeOutput = none := C.off (by rw [htask]; rfl)
      have hsession : s.session = none := (C.same (by rw [htask]; rfl)).symm.trans ha
      exact C.idle ha (fun _ _ _ => ⟨by rintro ⟨⟩, by rintro ⟨⟩⟩) (.inl hsession) (C.not_holding ha)
        (endStream_kept hb)
  | stops hact htask =>
      exact C.keep hquiet ⟨rfl, rfl, rfl⟩ rfl rfl (fun _ _ h => h) (.inr ⟨rfl, by rw [htask]; rfl⟩)
  | queues | ticks => exact C.keep hquiet ⟨rfl, rfl, rfl⟩ rfl rfl (fun _ _ h => h) (.inl rfl)
  | @captures output pixel planes ha hfits hplanes =>
      obtain ⟨g, -, hg, l⟩ := C.active output ha
      have K : Coherent F uuidString s (t ++ [(.capture output true (some pixel), none, [])]) :=
        C.keep hquiet ⟨rfl, rfl, rfl⟩ rfl rfl (fun _ _ h => h) (.inl rfl)
      exact { K with
        holding := by
          rintro _ _ ⟨⟩
          exact ⟨ha, g, hg, t, _, [], pixel, rfl, l, rfl, hfits, hplanes⟩ }
  | publishes hframes hb hafter => exact coherent_publish C hframes hb hafter _ _
  | stores hact hb he =>
      refine C.keep hquiet (buffer_kept hb ?_ ?_ ?_) rfl rfl (fun _ _ h => h) (.inl rfl) <;>
        obtain ⟨_, rfl⟩ | ⟨_, _, _, _, _, rfl⟩ | ⟨_, _, rfl⟩ := he
      all_goals first | (intro planes h; cases h) | (intro h; cases h)
  | returns hb => exact coherent_returns C hb

end Steps

/-- **Whose frames.**  In every run, each frame that was published was captured, in an active session
and in the camera's format, by the output for which the frame's stream had been begun, and no other
stream had been begun in between. -/
theorem frames_captured (F : Format) (uuidString : Nat → String) (memory : Memory) {t : History}
    {s : CameraService} (r : Steps (CameraService.Step F uuidString) (.initial F memory) t s) :
    ∀ p ∈ s.buffer.published,
      ∃ camera planes, Sampled F camera p.generation planes t ∧ p.pixels = planes.pixels F :=
  (r.invariant_trace (I := Coherent F uuidString) coherent_step (coherent_initial memory)).published

/-! ### The buffer's callers -/

/-- What the buffer did. -/
def used (t : History) : Trace := t.filterMap fun x => x.2.1

/-- A call of `next` waits only while the control queue waits for it. -/
def Serial (s : CameraService) : Prop :=
  s.buffer.waiting = [] ∨ (∃ n, s.task = .waiting n) ∧ ∃ call, s.buffer.waiting = [call]

section Serial
variable {F : Format} {uuidString : Nat → String} {b b' : CameraBuffer} {e : Event} {o : Output}
  {s s' : CameraService} {act : Act} {done : Option (Event × Output)} {shown : List Shown}

/-- Only `next`, and what wakes it, changes who waits for a frame. -/
theorem waiting_kept (h : Camera.step F uuidString b e = some (o, b'))
    (hnext : ∀ requested ack, e ≠ .next requested ack) (hwake : ∀ n timeout, e ≠ .wake n timeout) :
    b'.waiting = b.waiting := by
  cases step_cases h with
  | waits requested ack | answers requested ack => exact absurd rfl (hnext requested ack)
  | wakes n timeout | stalls n timeout => exact absurd rfl (hwake n timeout)
  | begins | ends | publishes | fails | stores | unlocks | copies | reads | same => rfl

/-- `next` is called, and waits or returns. -/
theorem waiting_next {requested : String} {ack : Int}
    (h : Camera.step F uuidString b (.next requested ack) = some (o, b')) (hb : b.waiting = [])
    (n : Nat) : b'.waiting = [] ∨ Task.next n o = .waiting n ∧ ∃ call, b'.waiting = [call] := by
  cases step_cases h with
  | waits => exact .inr ⟨rfl, _, by rw [hb, List.nil_append]⟩
  | answers | same => exact .inl hb

/-- The call that waits goes on waiting, or returns. -/
theorem waiting_wake {timeout : Bool}
    (h : Camera.step F uuidString b (.wake 0 timeout) = some (o, b')) :
    o = .quiet ∧ b' = b ∨ b'.waiting = b.waiting.eraseIdx 0 := by
  rw [Camera.step] at h
  split at h
  · split at h
    · split at h
      · cases h
        exact .inl ⟨rfl, rfl⟩
      · obtain ⟨id, frame, -, -, -, -, rfl⟩ | ⟨-, rfl, -⟩ := take_change (Option.some.inj h) <;>
          exact .inr rfl
    · cases h
  · cases h

/-- A step that leaves the waiting call and the task keeps the one with the other. -/
theorem Serial.of_kept (h : Serial s) (hwaiting : s'.buffer.waiting = s.buffer.waiting)
    (htask : s'.task = s.task ∨ ∀ n, s.task ≠ .waiting n) : Serial s' := by
  obtain h | ⟨⟨n, hn⟩, call, hcall⟩ := h
  · exact .inl (hwaiting.trans h)
  · obtain htask | htask := htask
    · exact .inr ⟨⟨n, htask.trans hn⟩, call, hwaiting.trans hcall⟩
    · exact absurd hn (htask n)

/-- The end of a task leaves the buffer, and no call of `next` waits. -/
theorem returns_spec (s : CameraService) : s.returns.2.buffer = s.buffer ∧
    (s.returns.2.task = s.task ∨ ∀ n, s.task ≠ .waiting n) := by
  rw [CameraService.returns]
  split
  · rename_i htask
    exact ⟨rfl, .inr fun n h => by cases htask.symm.trans h⟩
  · rename_i htask
    exact ⟨rfl, .inr fun n h => by cases htask.symm.trans h⟩
  · exact ⟨rfl, .inl rfl⟩
  · exact ⟨rfl, .inl rfl⟩

/-- A step uses the buffer once, or not, and alone. -/
theorem serial_step (h : s.step F uuidString act = some (done, shown, s')) (hs : Serial s) :
    Serial s' ∧ done.elim (s'.buffer = s.buffer) fun x =>
      Camera.step F uuidString s.buffer x.1 = some (x.2, s'.buffer) ∧ Alone s.buffer x.1 := by
  have halone : ∀ {e : Event}, (∀ requested ack, e ≠ .next requested ack) → Alone s.buffer e :=
    fun hne requested ack he => absurd he (hne requested ack)
  have hwait : ∀ {task : Task}, s.task = task → (∀ n, task ≠ .waiting n) →
      ∀ n, s.task ≠ .waiting n := fun htask hne n h => hne n (htask.symm.trans h)
  cases step_turn h with
  | request w value hidle => exact ⟨hs.of_kept rfl (.inr (hwait hidle (by rintro _ ⟨⟩))), rfl⟩
  | makes htask hb =>
      exact ⟨hs.of_kept (waiting_kept hb (by rintro _ _ ⟨⟩) (by rintro _ _ ⟨⟩))
        (.inr (hwait htask (by rintro _ ⟨⟩))), hb, halone (by rintro _ _ ⟨⟩)⟩
  | begins htask => exact ⟨hs.of_kept rfl (.inr (hwait htask (by rintro _ ⟨⟩))), rfl⟩
  | starts htask | renews htask | serves htask | passes htask | releases htask | cancels htask
  | halts htask =>
      exact ⟨hs.of_kept rfl (.inr (hwait htask (by rintro _ ⟨⟩))), rfl⟩
  | @nexts _ e o b n hact htask hb =>
      obtain ⟨requested, ack, htask, rfl⟩ | ⟨htask, timeout, rfl⟩ := htask
      · have hnone : s.buffer.waiting = [] :=
          hs.resolve_right fun ⟨⟨m, hm⟩, _⟩ => by cases htask.symm.trans hm
        refine ⟨(waiting_next hb hnone n).imp id fun ⟨hn, hcall⟩ => ⟨⟨n, hn⟩, hcall⟩, hb, ?_⟩
        rintro _ _ ⟨⟩
        exact hnone
      · refine ⟨?_, hb, halone (by rintro _ _ ⟨⟩)⟩
        obtain ⟨rfl, rfl⟩ | hw := waiting_wake hb
        · exact hs.imp id fun ⟨_, hcall⟩ => ⟨⟨n, rfl⟩, hcall⟩
        · refine .inl (hw.trans ?_)
          obtain h | ⟨-, call, h⟩ := hs <;> rw [h] <;> rfl
  | clears htask hb =>
      exact ⟨hs.of_kept (waiting_kept hb (by rintro _ _ ⟨⟩) (by rintro _ _ ⟨⟩))
        (.inr (hwait htask (by rintro _ ⟨⟩))), hb, halone (by rintro _ _ ⟨⟩)⟩
  | stops hact htask => exact ⟨hs.of_kept rfl (.inr (hwait htask (by rintro _ ⟨⟩))), rfl⟩
  | queues | captures | ticks => exact ⟨hs.of_kept rfl (.inl rfl), rfl⟩
  | publishes hframes hb =>
      exact ⟨hs.of_kept (waiting_kept hb (by rintro _ _ ⟨⟩) (by rintro _ _ ⟨⟩)) (.inl rfl), hb,
        halone (by rintro _ _ ⟨⟩)⟩
  | stores hact hb he =>
      obtain ⟨_, rfl⟩ | ⟨_, _, _, _, _, rfl⟩ | ⟨_, _, rfl⟩ := he <;>
        exact ⟨hs.of_kept (waiting_kept hb (by rintro _ _ ⟨⟩) (by rintro _ _ ⟨⟩)) (.inl rfl), hb,
          halone (by rintro _ _ ⟨⟩)⟩
  | @returns o b hb =>
      have hw := waiting_kept hb (by rintro _ _ ⟨⟩) (by rintro _ _ ⟨⟩)
      obtain ⟨hbuffer, htask⟩ := returns_spec { s with buffer := b }
      refine ⟨hs.of_kept ((congrArg CameraBuffer.waiting hbuffer).trans hw) htask, ?_,
        halone (by rintro _ _ ⟨⟩)⟩
      exact hb.trans (congrArg (fun b => some (o, b)) hbuffer.symm)

end Serial

theorem used_append (t u : History) : used (t ++ u) = used t ++ used u := List.filterMap_append

/-- **The service keeps to the buffer's contract.**  In every run of the service the buffer is called
one `next` at a time, so that its leases are kept: the leased frame is in a slot of its own, no store
goes there, and what is queued or published is newer than all that was handed out. -/
theorem service_serial (F : Format) (uuidString : Nat → String) (memory : Memory) {t : History}
    {s : CameraService} (r : Steps (CameraService.Step F uuidString) (.initial F memory) t s) :
    SerialRun F uuidString (.initial F memory) (used t) s.buffer ∧ Leases F uuidString s.buffer := by
  have hrun : SerialRun F uuidString (.initial F memory) (used t) s.buffer ∧ Serial s := by
    have hinitial : SerialRun F uuidString (.initial F memory) (used [])
        (CameraService.initial F memory).buffer := .refl _
    refine r.invariant_trace (I := fun s t =>
      SerialRun F uuidString (.initial F memory) (used t) s.buffer ∧ Serial s) ?_
      ⟨hinitial, .inl rfl⟩
    rintro s t act ⟨done, shown⟩ s' ⟨hrun, hs⟩ hstep
    obtain ⟨hs', hdone⟩ := serial_step hstep hs
    refine ⟨?_, hs'⟩
    rw [used_append]
    cases done with
    | none =>
        rw [show used [(act, none, shown)] = [] from rfl, List.append_nil,
          show s'.buffer = s.buffer from hdone]
        exact hrun
    | some x => exact hrun.append (.one hdone)
  exact ⟨hrun.1, leases_run hrun.1⟩

/-! ### The lease -/

/-- The time that passed. -/
def clock (t : History) : Nat := (t.map fun x => x.1.passes).sum

/-- A step that answers that the camera is started, or hands out a frame. -/
def Renews (F : Format) (x : Act × (Option (Event × Output) × List Shown)) : Prop :=
  ∃ n, (∃ id, Shown.answer n (started F id) ∈ x.2.2) ∨
    ∃ reply, Shown.answer n (frameObject reply) ∈ x.2.2

/-- The deadline is five seconds after the start of the camera or the last frame that was handed out,
whatever was later. -/
def Renewed (F : Format) (deadline : Nat) (t : History) : Prop :=
  ∃ u x v, t = u ++ x :: v ∧ deadline = clock u + 5000 ∧ Renews F x ∧ ∀ y ∈ v, ¬ Renews F y

/-- The camera runs, and its timer is not set yet or not any more: the control queue is between
`startRunning` and `renew`, or between the end of the timer and `stopRunning`. -/
def Task.switching : Task → Bool
  | .renewing .. | .halting _ => true
  | _ => false

structure Leased (F : Format) (s : CameraService) (t : History) : Prop where
  now : s.now = clock t
  running : s.running = true → s.task.switching = false → s.lease ≠ none
  renewed : ∀ deadline, s.lease = some deadline → Renewed F deadline t
  owed : ∀ a ∈ s.task.owed, Plain a.2

section Leased
variable {F : Format} {uuidString : Nat → String} {s s' : CameraService} {t : History}
  {x : Act × (Option (Event × Output) × List Shown)}

/-- The clock after one more step. -/
theorem clock_snoc (t : History) (x : Act × (Option (Event × Output) × List Shown)) :
    clock (t ++ [x]) = clock t + x.1.passes := by
  rw [clock, List.map_append, List.sum_append, List.map_singleton, List.sum_singleton]
  rfl

/-- Answers that name no stream renew nothing. -/
theorem AllPlain.not_renews (h : AllPlain x.2.2) : ¬ Renews F x := by
  rintro ⟨n, ⟨id, hmem⟩ | ⟨reply, hmem⟩⟩
  · cases h n _ hmem
  · cases h n _ hmem

/-- A deadline stays the last one until a step renews. -/
theorem Renewed.snoc {deadline : Nat} (h : Renewed F deadline t) (hx : ¬ Renews F x) :
    Renewed F deadline (t ++ [x]) := by
  obtain ⟨u, y, v, rfl, hd, hy, hv⟩ := h
  refine ⟨u, y, v ++ [x], by simp, hd, hy, fun z hz => ?_⟩
  rw [List.mem_append, List.mem_singleton] at hz
  obtain hz | rfl := hz
  · exact hv z hz
  · exact hx

/-- The end of a task leaves the session and its lease. -/
theorem returns_leased (s : CameraService) : s.returns.2.now = s.now ∧
    s.returns.2.running = s.running ∧ s.returns.2.lease = s.lease := by
  rw [CameraService.returns]
  split <;> exact ⟨rfl, rfl, rfl⟩

/-- A method that returns answers what was owed, if it was the end of `stop`. -/
theorem returns_task (s : CameraService) (h : ∀ a ∈ s.task.owed, Plain a.2) :
    AllPlain s.returns.1 ∧ (∀ a ∈ s.returns.2.task.owed, Plain a.2) ∧
      (s.returns.2.task.switching = false → s.task.switching = false) := by
  rw [CameraService.returns]
  split
  · rename_i htask
    exact ⟨allPlain_nil, by rintro _ ⟨⟩, fun _ => by rw [htask]; rfl⟩
  · rename_i htask
    rw [htask] at h
    exact ⟨allPlain_answers h, by rintro _ ⟨⟩, fun _ => by rw [htask]; rfl⟩
  · exact ⟨allPlain_nil, h, id⟩
  · exact ⟨allPlain_nil, h, id⟩

/-- A step that leaves the timer and the capture as they are, and hands out nothing. -/
theorem Leased.keep (L : Leased F s t) (hplain : AllPlain x.2.2)
    (hnow : s'.now = s.now + x.1.passes) (hrunning : s'.running = s.running) (hlease : s'.lease = s.lease)
    (htask : s'.task.switching = false → s.task.switching = false)
    (howed : ∀ a ∈ s'.task.owed, Plain a.2) : Leased F s' (t ++ [x]) := by
  refine ⟨?_, fun hrun hset => ?_, fun deadline hd => ?_, howed⟩
  · rw [clock_snoc, hnow, L.now]
  · rw [hlease]
    exact L.running (hrunning ▸ hrun) (htask hset)
  · exact (L.renewed deadline (hlease ▸ hd)).snoc hplain.not_renews

/-- The timer is set when the camera is started or a frame handed out. -/
theorem Leased.renew (L : Leased F s t) (hx : Renews F x) (hpasses : x.1.passes = 0) :
    Leased F { s with lease := some (s.now + 5000), task := .idle } (t ++ [x]) := by
  refine ⟨?_, fun _ _ => Option.some_ne_none _, ?_, by rintro _ ⟨⟩⟩
  · rw [clock_snoc, hpasses]
    exact L.now
  · rintro _ ⟨⟩
    exact ⟨t, x, [], rfl, by rw [L.now], hx, List.forall_mem_nil _⟩

/-- Each step keeps a running session under a deadline that was renewed last. -/
theorem leased_step {act : Act} {o : Option (Event × Output) × List Shown} (L : Leased F s t)
    (h : s.Step F uuidString act o s') : Leased F s' (t ++ [(act, o)]) := by
  obtain ⟨done, shown⟩ := o
  have hset : ∀ {task : Task} {p : Prop}, s.task = task → task.switching = false → p →
      s.task.switching = false := fun htask hfalse _ => htask ▸ hfalse
  have howed : ∀ {task : Task}, s.task = task → ∀ a ∈ task.owed, Plain a.2 :=
    fun htask => htask ▸ L.owed
  cases step_turn h with
  | request w value hidle silent plain htask howed =>
      exact L.keep plain rfl rfl rfl (hset hidle rfl) howed
  | @makes n camera o b htask hb =>
      refine L.keep ?_ rfl rfl rfl (hset htask rfl) (by rintro _ ⟨⟩)
      intro n answer hmem
      cases List.mem_singleton.mp hmem
  | begins htask => exact L.keep allPlain_nil rfl rfl rfl (hset htask rfl) (by rintro _ ⟨⟩)
  | starts htask =>
      refine ⟨?_, by rintro - ⟨⟩, fun deadline hd => ?_, by rintro _ ⟨⟩⟩
      · rw [clock_snoc]
        exact L.now
      · exact (L.renewed deadline hd).snoc allPlain_nil.not_renews
  | @renews n id htask => exact L.renew ⟨n, .inl ⟨id, List.mem_singleton_self _⟩⟩ rfl
  | @nexts _ e o b n hact htask hb =>
      have htask : s.task.switching = false := by
        obtain ⟨id, ack, htask, -⟩ | ⟨htask, -⟩ := htask <;> rw [htask] <;> rfl
      exact L.keep allPlain_nil (by rw [hact]; rfl) rfl rfl (fun _ => htask) (next_owed n o)
  | @serves n reply htask => exact L.renew ⟨n, .inr ⟨reply, List.mem_singleton_self _⟩⟩ rfl
  | passes htask =>
      exact L.keep (allPlain_answers (howed htask)) rfl rfl rfl (hset htask rfl) (by rintro _ ⟨⟩)
  | releases htask hframes =>
      exact L.keep allPlain_nil rfl rfl rfl (hset htask rfl) fun a ha => howed htask a ha
  | cancels htask =>
      refine ⟨?_, by rintro - ⟨⟩, by rintro _ ⟨⟩, fun a ha => howed htask a ha⟩
      rw [clock_snoc]
      exact L.now
  | halts htask =>
      refine ⟨?_, by rintro ⟨⟩, fun deadline hd => ?_, fun a ha => howed htask a ha⟩
      · rw [clock_snoc]
        exact L.now
      · exact (L.renewed deadline hd).snoc allPlain_nil.not_renews
  | clears htask hb => exact L.keep allPlain_nil rfl rfl rfl (hset htask rfl) fun a ha => howed htask a ha
  | stops hact htask =>
      exact L.keep allPlain_nil (by rw [hact]; rfl) rfl rfl (hset htask rfl) (by rintro _ ⟨⟩)
  | queues hact => exact L.keep allPlain_nil (by rw [hact]; rfl) rfl rfl id L.owed
  | captures | ticks => exact L.keep allPlain_nil rfl rfl rfl id L.owed
  | publishes =>
      refine L.keep (fun n answer hmem => ?_) rfl rfl rfl id L.owed
      obtain ⟨p, -, hp⟩ := List.mem_map.mp hmem
      cases hp
  | stores hact => exact L.keep allPlain_nil (by rw [hact]; rfl) rfl rfl id L.owed
  | @returns o b hb =>
      obtain ⟨hnow, hrunning, hlease⟩ := returns_leased { s with buffer := b }
      obtain ⟨hplain, howed, htask⟩ := returns_task { s with buffer := b } L.owed
      exact L.keep hplain hnow hrunning hlease htask howed

end Leased

/-- **The camera runs on a lease.**  In every run, while the camera runs, and unless the control queue
is about to set its timer, at the start, or has just cancelled it, in `stop`, the timer is set to five
seconds after the camera was started or after the last frame that was handed out; and when it is due
and the control queue and `lock` are free, the handler stops the camera. -/
theorem capture_leased (F : Format) (uuidString : Nat → String) (memory : Memory) {t : History}
    {s : CameraService} (r : Steps (CameraService.Step F uuidString) (.initial F memory) t s)
    (hrunning : s.running = true) (hset : s.task.switching = false) :
    ∃ deadline, s.lease = some deadline ∧ Renewed F deadline t ∧
      (deadline ≤ clock t → s.task = .idle → s.frames = .idle →
        ∃ u s', Steps (CameraService.Step F uuidString) s u s' ∧
          u.map Prod.fst = [.expire, .proceed, .proceed, .proceed] ∧ s'.running = false ∧
            s'.activeOutput = none) := by
  have hinitial : Leased F (.initial F memory) [] :=
    ⟨rfl, by rintro ⟨⟩, by rintro _ ⟨⟩, by rintro _ ⟨⟩⟩
  have L : Leased F s t := r.invariant_trace (I := Leased F) leased_step hinitial
  obtain ⟨deadline, hd⟩ := Option.ne_none_iff_exists'.mp (L.running hrunning hset)
  refine ⟨deadline, hd, L.renewed deadline hd, fun hdue htask hframes => ?_⟩
  rw [← L.now] at hdue
  have h₁ : s.Step F uuidString .expire (none, []) { s with task := .stopping none none } := by
    rw [CameraService.Step, CameraService.step, htask, hd]
    exact if_pos hdue
  have h₂ : CameraService.Step F uuidString { s with task := .stopping none none } .proceed
      (none, []) { s with activeOutput := none, task := .released none } := by
    simp only [CameraService.Step, CameraService.step, CameraService.proceed, hframes]
    rfl
  have h₃ : CameraService.Step F uuidString { s with activeOutput := none, task := .released none }
      .proceed (none, [])
      { s with activeOutput := none, lease := none, task := .halting none } := rfl
  have h₄ : CameraService.Step F uuidString
      { s with activeOutput := none, lease := none, task := .halting none } .proceed (none, [])
      { s with
        activeOutput := none
        lease := none
        running := false
        session := none
        stream := none
        task := .clearing none } := rfl
  exact ⟨_, _, .more h₁ (.more h₂ (.more h₃ (.one h₄))), rfl, rfl, rfl⟩

/-! ### A run -/

def sampleWorld : World := ⟨true, true, true, none⟩

def samplePixel : Pixel := ⟨videoRange, 2, 1, 2, some samplePlanes⟩

/-- The memory is cleared, the camera starts, and a frame is captured, published and handed out. -/
def sampleActs : List Act :=
  List.replicate 15 (Act.store 0) ++
    [Act.unlock, Act.request sampleWorld [("action", Json.str "camera-start")], Act.proceed] ++
    List.replicate 15 (Act.store 0) ++
    [Act.unlock, Act.proceed, Act.proceed, Act.proceed, Act.tick 40,
      Act.capture 0 true (some samplePixel), Act.publish] ++
    List.replicate 6 (Act.store 0) ++
    [Act.unlock, Act.request sampleWorld [("action", Json.str "camera-next"),
      ("stream", Json.str ""), ("ack", Json.int 0)], Act.proceed, Act.proceed, Act.tick 5000]

def samplePlay : Option (History × CameraService) :=
  play (fun s x => (s.step sampleFormat sampleNames x).map fun r => ((r.1, r.2.1), r.2.2))
    (.initial sampleFormat fun _ => .word 7) sampleActs

/-- The sample run publishes one frame and hands it out. -/
theorem samplePlay_steps : ∃ t s, Steps (CameraService.Step sampleFormat sampleNames)
    (.initial sampleFormat fun _ => .word 7) t s ∧
      s.buffer.published.map (fun p => (p.generation, p.sequence)) = [(0, 1)] ∧ s.running = true ∧
        s.lease = some 5040 ∧ s.task.switching = false := by
  have hplay : samplePlay.map (fun r => (r.2.buffer.published.map fun p => (p.generation, p.sequence),
      r.2.running, r.2.lease, r.2.task.switching)) = some ([(0, 1)], true, some 5040, false) := by
    decide +kernel
  obtain ⟨⟨t, s⟩, hrun, hs⟩ := Option.map_eq_some_iff.mp hplay
  obtain ⟨hp, hs⟩ := Prod.ext_iff.mp hs
  obtain ⟨hrunning, hs⟩ := Prod.ext_iff.mp hs
  obtain ⟨hlease, hset⟩ := Prod.ext_iff.mp hs
  refine ⟨t, s, (Steps.of_play hrun).mono fun h => ?_, hp, hrunning, hlease, hset⟩
  obtain ⟨⟨done, shown, s'⟩, hstep, heq⟩ := Option.map_eq_some_iff.mp h
  cases heq
  exact hstep

/-- The frame of the sample run shows the planes that its camera gave. -/
theorem frames_captured_sample : ∃ t s p, p ∈ CameraBuffer.published (CameraService.buffer s) ∧
    ∃ camera planes, Sampled sampleFormat camera p.generation planes t ∧
      p.pixels = planes.pixels sampleFormat := by
  obtain ⟨t, s, r, hp, -⟩ := samplePlay_steps
  obtain ⟨p, hmem, -⟩ := List.mem_map.mp (hp ▸ List.mem_singleton_self (0, 1))
  exact ⟨t, s, p, hmem, frames_captured sampleFormat sampleNames _ r p hmem⟩

/-- The buffer's part of the sample run is serial, and its leases hold. -/
theorem service_serial_sample : ∃ t s, SerialRun sampleFormat sampleNames
    (.initial sampleFormat fun _ => .word 7) (used t) (CameraService.buffer s) ∧
      Leases sampleFormat sampleNames s.buffer := by
  obtain ⟨t, s, r, -⟩ := samplePlay_steps
  exact ⟨t, s, service_serial sampleFormat sampleNames _ r⟩

/-- The lease of the sample run is five seconds after the frame that was handed out. -/
theorem capture_leased_sample : ∃ t s, CameraService.lease s = some 5040 ∧
    Renewed sampleFormat 5040 t := by
  obtain ⟨t, s, r, -, hrunning, hlease, hset⟩ := samplePlay_steps
  obtain ⟨deadline, hd, renewed, -⟩ :=
    capture_leased sampleFormat sampleNames _ r hrunning hset
  obtain rfl := Option.some.inj (hlease.symm.trans hd)
  exact ⟨t, s, hlease, renewed⟩

end Ashacky.Camera.Service
