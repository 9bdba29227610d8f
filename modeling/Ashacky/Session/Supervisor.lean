import Ashacky.Session.Control

/-!
# Session — the supervisor

The main loop of `host/session/session.py`: while QEMU runs, the supervisor looks after the display
and the video process, asks the guest to shut down when it was told to stop, and reads QMP events
from a socket.  A `SHUTDOWN` event of the guest's own sets `clean`; once QEMU is gone, `clean`
decides whether the app is told that the guest stopped.

Each statement of the loop is a step of its own, and QEMU writes, closes its end and exits between
any two of them, as do the signal handler, the clock and the two children.  `recv` returns any
number of the bytes that wait, and any statement may raise (`fault`).  `json.loads` is a parameter.

* `Drained`: no `SHUTDOWN` event of the guest waits in the socket when the loop finds QEMU gone.
* `shutdown_kept`: while that holds, the last `SHUTDOWN` event decides.
* `shutdown_lost`: it need not hold.  QEMU may write the event and exit after `select` timed out and
  before the next `poll`.
-/

namespace Ashacky.Session
open Ashacky.Support Ashacky.Control

/-! ### The loop -/

/-- The statements of the loop, and those after it. -/
inductive Phase where
  | poll
  | services
  | video
  | stop
  | display
  | deadline
  | select
  | recv
  | wait
  | report
  | done
  | raised
  deriving DecidableEq

/-- QEMU as the supervisor sees it. -/
structure Qemu where
  /-- The status it exited with. -/
  returncode : Option Int
  /-- What it wrote and the supervisor has not read. -/
  unread : Data
  closed : Bool
  /-- What it wrote since the loop began. -/
  written : Data
  deriving DecidableEq

def Qemu.read (count : Nat) (q : Qemu) : Qemu := { q with unread := q.unread.drop count }

structure Supervisor where
  phase : Phase
  /-- `STOP`, set by the signal handler. -/
  stop : Bool
  shutdownDeadline : Option Nat
  videoRetries : List Nat
  retries : List Nat
  buffer : Data
  clean : Bool
  /-- `time.monotonic()`, in nanoseconds. -/
  now : Nat
  /-- The statuses the two children exited with. -/
  video : Option Int
  view : Option Int
  qemu : Qemu
  deriving DecidableEq

/-- What the supervisor does outside. -/
inductive Supervisor.Effect where
  | pollServices
  | spawnVideo
  | spawnView
  | powerdown
  | request (message : Message)
  deriving DecidableEq

inductive Supervisor.Event where
  /-- The next statement. -/
  | run
  /-- The next statement is `recv`, which returns that many bytes. -/
  | recv (count : Nat)
  | fault
  | write (bytes : Data)
  | close
  | exit (status : Int)
  | videoExit (status : Int)
  | viewExit (status : Int)
  | signal
  | tick (passed : Nat)
  deriving DecidableEq

/-- The times of the last minute. -/
def recent (now : Nat) (times : List Nat) : List Nat := times.filter fun t => now - t < 60 * second

/-- The supervisor's request after a clean shutdown. -/
def vmStopped (token : String) : Message :=
  ⟨.supervisor, [("action", .str "vm-stopped"), ("token", .str token), ("clean", .bool true)]⟩

/-- One line of QMP: whether the guest shut down cleanly after it, or nothing if it raises. -/
def note (loads : Data → Option Json) (clean : Bool) (line : Data) : Option Bool :=
  match loads line with
  | some (.obj event) =>
      if event.lookup "event" = some (.str "SHUTDOWN") then
        match (event.lookup "data").getD (.obj []) with
        | .obj data => some (data.lookup "guest" = some (.bool true))
        | _ => none
      else some clean
  | _ => none

namespace Supervisor

/-- The next statement. -/
def run (token : String) (s : Supervisor) : Option (List Effect × Supervisor) :=
  match s.phase with
  | .poll =>
      match s.qemu.returncode with
      | none => some ([], { s with phase := .services })
      | some _ => some ([], { s with phase := .wait })
  | .services =>
      some (if ¬ s.stop ∧ s.shutdownDeadline = none then [.pollServices] else [],
        { s with phase := .video })
  | .video =>
      if s.video ≠ none ∧ ¬ s.stop ∧ s.shutdownDeadline = none then
        if (recent s.now s.videoRetries).length < 3 then
          some ([.spawnVideo], { s with
            phase := .stop
            videoRetries := recent s.now s.videoRetries ++ [s.now]
            video := none })
        else some ([], { s with phase := .stop, videoRetries := recent s.now s.videoRetries })
      else some ([], { s with phase := .stop })
  | .stop =>
      if s.stop ∧ s.shutdownDeadline = none then
        some ([.powerdown],
          { s with phase := .display, shutdownDeadline := some (s.now + 60 * second) })
      else some ([], { s with phase := .display })
  | .display =>
      match s.view, s.shutdownDeadline with
      | some status, none =>
          if status = 0 then
            some ([.powerdown],
              { s with phase := .deadline, shutdownDeadline := some (s.now + 60 * second) })
          else if (recent s.now s.retries).length ≥ 3 then some ([], { s with phase := .raised })
          else
            some ([.spawnView], { s with
              phase := .deadline
              retries := recent s.now s.retries ++ [s.now]
              view := none })
      | _, _ => some ([], { s with phase := .deadline })
  | .deadline =>
      match s.shutdownDeadline with
      | some d => some ([], { s with phase := if s.now > d then .raised else .select })
      | none => some ([], { s with phase := .select })
  | .select =>
      -- Timed out, unless there is something to read or QEMU's end is closed.
      some ([], { s with phase := if s.qemu.unread ≠ [] ∨ s.qemu.closed then .recv else .poll })
  | .wait =>
      match s.qemu.returncode with
      | none => some ([], { s with phase := .raised })
      | some _ => some ([], { s with phase := .report })
  | .report =>
      if s.clean then
        some (if s.view = none then [.request (Session.vmStopped token)] else [],
          { s with phase := .done })
      else if s.qemu.returncode ≠ some 0 then some ([], { s with phase := .raised })
      else some ([], { s with phase := .done })
  | .recv | .done | .raised => none

/-- The lines that the next bytes complete, and the buffer after them. -/
def received (count : Nat) (s : Supervisor) : List Data × Data :=
  cut (s.buffer ++ s.qemu.unread.take count)

/-- `recv(65536)` and the loop over the lines it completes. -/
def recv (loads : Data → Option Json) (count : Nat) (s : Supervisor) :
    Option (List Effect × Supervisor) :=
  if s.phase = .recv ∧ 0 < count ∧ count ≤ 65536 then
    if s.qemu.unread = [] then
      -- An empty chunk is the end of the stream.
      if s.qemu.closed then some ([], { s with phase := .wait }) else none
    else if count ≤ s.qemu.unread.length then
      match (s.received count).1.foldlM (note loads) s.clean with
      | some clean =>
          some ([], { s with
            phase := .poll
            buffer := (s.received count).2
            clean := clean
            qemu := s.qemu.read count })
      | none => some ([], { s with phase := .raised, qemu := s.qemu.read count })
    else none
  else none

/-- One step of the supervisor or of what is around it. -/
def step (loads : Data → Option Json) (token : String) (s : Supervisor) :
    Event → Option (List Effect × Supervisor)
  | .run => s.run token
  | .recv count => s.recv loads count
  | .fault =>
      if s.phase = .done ∨ s.phase = .raised then none else some ([], { s with phase := .raised })
  | .write bytes =>
      if s.qemu.closed then none
      else some ([], { s with qemu := { s.qemu with
        unread := s.qemu.unread ++ bytes
        written := s.qemu.written ++ bytes } })
  | .close => some ([], { s with qemu := { s.qemu with closed := true } })
  | .exit status =>
      if s.qemu.returncode = none then
        some ([], { s with qemu := { s.qemu with returncode := some status, closed := true } })
      else none
  | .videoExit status =>
      if s.video = none then some ([], { s with video := some status }) else none
  | .viewExit status => if s.view = none then some ([], { s with view := some status }) else none
  | .signal => some ([], { s with stop := true })
  | .tick passed => some ([], { s with now := s.now + passed })

/-- The loop begins: nothing was read, and what QEMU wrote so far waits. -/
structure Initial (s : Supervisor) : Prop where
  phase : s.phase = .poll
  shutdownDeadline : s.shutdownDeadline = none
  videoRetries : s.videoRetries = []
  retries : s.retries = []
  buffer : s.buffer = []
  clean : s.clean = false
  written : s.qemu.written = s.qemu.unread
  closed : s.qemu.returncode ≠ none → s.qemu.closed = true

/-- The loop was left, and nothing was raised. -/
def Left (s : Supervisor) : Prop := s.phase = .wait ∨ s.phase = .report ∨ s.phase = .done

instance : DecidablePred Left := fun s =>
  inferInstanceAs (Decidable (s.phase = .wait ∨ s.phase = .report ∨ s.phase = .done))

/-! ### Shutdown events -/

variable (loads : Data → Option Json)

/-- The line is a `SHUTDOWN` event. -/
def Announces (line : Data) : Prop :=
  ∃ event, loads line = some (.obj event) ∧ event.lookup "event" = some (.str "SHUTDOWN")

/-- The line is a `SHUTDOWN` event of the guest's own. -/
def Confirms (line : Data) : Prop :=
  ∃ event data, loads line = some (.obj event) ∧
    event.lookup "event" = some (.str "SHUTDOWN") ∧ event.lookup "data" = some (.obj data) ∧
    data.lookup "guest" = some (.bool true)

/-- The last `SHUTDOWN` event of the text is one of the guest's own. -/
def Confirmed (text : Data) : Prop :=
  ∃ before line after, (cut text).1 = before ++ line :: after ∧ Confirms loads line ∧
    ∀ l ∈ after, ¬ Announces loads l

/-- When the loop finds QEMU gone, no `SHUTDOWN` event of the guest's own waits to be read. -/
def Drained (s : Supervisor) (e : Event) : Prop :=
  e = .run → s.phase = .poll → s.qemu.returncode ≠ none →
    ∀ l ∈ (cut (s.buffer ++ s.qemu.unread)).1, ¬ Confirms loads l

variable {loads} {token : String} {s s' : Supervisor} {e : Event} {o : List Effect}

/-- A line that reports a clean end is noted as one. -/
theorem note_confirms {clean : Bool} {line : Data} (h : Confirms loads line) :
    note loads clean line = some true := by
  obtain ⟨event, data, hl, he, hd, hg⟩ := h
  simp [note, hl, he, hd, hg]

/-- A line that announces nothing leaves the note. -/
theorem note_other {clean clean' : Bool} {line : Data} (h : ¬ Announces loads line)
    (hn : note loads clean line = some clean') : clean' = clean := by
  unfold note at hn
  split at hn
  · next event hl =>
      rw [if_neg fun he => h ⟨event, hl, he⟩] at hn
      exact (Option.some.inj hn).symm
  · cases hn

theorem foldlM_other {clean clean' : Bool} {lines : List Data}
    (h : ∀ l ∈ lines, ¬ Announces loads l)
    (hn : lines.foldlM (note loads) clean = some clean') : clean' = clean := by
  induction lines generalizing clean with
  | nil => exact (Option.some.inj hn).symm
  | cons line lines ih =>
      obtain ⟨clean₁, h₁, h₂⟩ := Option.bind_eq_some_iff.mp hn
      rw [← note_other (h line List.mem_cons_self) h₁]
      exact ih (fun l hl => h l (List.mem_cons_of_mem _ hl)) h₂

/-- The last event that was read decides. -/
theorem foldlM_confirmed {clean clean' : Bool} {before after : List Data} {line : Data}
    (hc : Confirms loads line) (h : ∀ l ∈ after, ¬ Announces loads l)
    (hn : (before ++ line :: after).foldlM (note loads) clean = some clean') : clean' = true := by
  rw [List.foldlM_append] at hn
  obtain ⟨clean₁, -, hn⟩ := Option.bind_eq_some_iff.mp hn
  rw [List.foldlM_cons, note_confirms hc] at hn
  exact foldlM_other h hn

/-! ### What is read -/

variable (loads) in
/-- What was read so far, what waits, and what remains when the loop is left. -/
structure Reads (s : Supervisor) : Prop where
  read : s.phase ≠ .raised → ∃ text, s.qemu.written = text ++ s.qemu.unread ∧
    s.buffer = (cut text).2 ∧ (cut text).1.foldlM (note loads) false = some s.clean
  exited : s.qemu.returncode ≠ none → s.qemu.closed = true
  left : Left s → s.qemu.closed = true ∧
    ∀ l ∈ (cut (s.buffer ++ s.qemu.unread)).1, ¬ Confirms loads l

/-- At the start nothing was read. -/
theorem Initial.reads (h : Initial s) : Reads loads s where
  read _ := ⟨[], h.written, h.buffer, by rw [h.clean]; rfl⟩
  exited := h.closed
  left hl := by simp [Left, h.phase] at hl

/-- No statement but `recv` reads. -/
theorem run_frame (h : s.run token = some (o, s')) :
    s'.qemu = s.qemu ∧ s'.buffer = s.buffer ∧ s'.clean = s.clean ∧ s.phase ≠ .raised ∧
      (Left s' → Left s ∨ s.phase = .poll ∧ s.qemu.returncode ≠ none) := by
  unfold run at h
  split at h <;> rename_i hp
  case h_1 =>
    split at h <;> cases h
    · simp [hp, Left]
    · next hr => simp [hp, hr]
  case h_10 | h_11 | h_12 => cases h
  all_goals
    (repeat' split at h) <;> cases h <;> simp_all [Left]

/-- What leaves the socket, the buffer and `clean` alone keeps the invariant. -/
theorem Reads.frame (I : Reads loads s) (hq : s'.qemu = s.qemu) (hb : s'.buffer = s.buffer)
    (hc : s'.clean = s.clean) (hr : s'.phase ≠ .raised → s.phase ≠ .raised)
    (hl : Left s' → Left s) : Reads loads s' where
  read hp := by
    rw [hq, hb, hc]
    exact I.read (hr hp)
  exited := by
    rw [hq]
    exact I.exited
  left hp := by
    rw [hq, hb]
    exact I.left (hl hp)

/-- A turn of the loop keeps what was read noted. -/
theorem Reads.run (I : Reads loads s) (hd : Drained loads s .run)
    (h : s.run token = some (o, s')) : Reads loads s' := by
  obtain ⟨hq, hb, hc, hr, hl⟩ := run_frame h
  refine ⟨?_, ?_, ?_⟩
  · rw [hq, hb, hc]
    exact fun _ => I.read hr
  · rw [hq]
    exact I.exited
  · rw [hq, hb]
    intro hp
    rcases hl hp with hp | ⟨hp, hx⟩
    · exact I.left hp
    · exact ⟨I.exited hx, hd rfl hp hx⟩

theorem Reads.recv {count : Nat} (I : Reads loads s) (h : s.recv loads count = some (o, s')) :
    Reads loads s' := by
  unfold Supervisor.recv at h
  obtain ⟨⟨hp, -⟩, h⟩ := Option.ite_none_right_eq_some.mp h
  have hr : s.phase ≠ .raised := by simp [hp]
  obtain ⟨text, hw, hb, hf⟩ := I.read hr
  split at h
  · next hu =>
      -- The end of the stream: nothing waits, and the unfinished line is not an event.
      obtain ⟨hcl, h⟩ := Option.ite_none_right_eq_some.mp h
      cases h
      refine ⟨fun _ => I.read hr, I.exited, fun _ => ⟨hcl, ?_⟩⟩
      simp [hu, hb, cut_rest]
  · obtain ⟨hcount, h⟩ := Option.ite_none_right_eq_some.mp h
    split at h
    · next clean hn =>
        cases h
        refine ⟨fun _ => ⟨text ++ s.qemu.unread.take count, ?_, ?_, ?_⟩, I.exited, ?_⟩
        · rw [Qemu.read, List.append_assoc, List.take_append_drop]
          exact hw
        · rw [cut_append text, ← hb]
          rfl
        · rw [cut_append text, ← hb, List.foldlM_append, hf]
          exact hn
        · intro hl
          simp [Left] at hl
    · cases h
      exact ⟨fun hp => absurd rfl hp, I.exited, fun hl => by simp [Left] at hl⟩

theorem reads_step (I : Reads loads s) (hd : Drained loads s e)
    (h : s.step loads token e = some (o, s')) : Reads loads s' := by
  cases e with
  | run => exact I.run hd h
  | recv count => exact I.recv h
  | fault =>
      obtain ⟨-, h⟩ := Option.ite_none_left_eq_some.mp h
      cases h
      exact ⟨fun hp => absurd rfl hp, I.exited, fun hl => by simp [Left] at hl⟩
  | write bytes =>
      obtain ⟨hopen, h⟩ := Option.ite_none_left_eq_some.mp h
      cases h
      refine ⟨fun hp => ?_, I.exited, fun hl => absurd (I.left hl).1 hopen⟩
      obtain ⟨text, hw, hb, hf⟩ := I.read hp
      exact ⟨text, by rw [hw, List.append_assoc], hb, hf⟩
  | close =>
      cases h
      exact ⟨I.read, fun _ => rfl, fun hl => ⟨rfl, (I.left hl).2⟩⟩
  | exit status =>
      obtain ⟨-, h⟩ := Option.ite_none_right_eq_some.mp h
      cases h
      exact ⟨I.read, fun _ => rfl, fun hl => ⟨rfl, (I.left hl).2⟩⟩
  | videoExit status | viewExit status =>
      obtain ⟨-, h⟩ := Option.ite_none_right_eq_some.mp h
      cases h
      exact I.frame rfl rfl rfl id id
  | signal | tick passed =>
      cases h
      exact I.frame rfl rfl rfl id id

/-- Nothing the guest confirmed waits when the loop is left, so the last event was read. -/
theorem Reads.clean (I : Reads loads s) (hl : Left s) (hc : Confirmed loads s.qemu.written) :
    s.clean = true := by
  obtain ⟨text, hw, hb, hf⟩ := I.read (by rcases hl with h | h | h <;> simp [h])
  obtain ⟨before, line, after, hcut, hline, hafter⟩ := hc
  rw [hw, cut_append, ← hb] at hcut
  rcases List.append_eq_append_iff.mp hcut with ⟨rest, rfl, hrest⟩ | ⟨rest, htext, hrest⟩
  · -- The line would be among those that wait.
    have hmem : line ∈ (cut (s.buffer ++ s.qemu.unread)).1 := by
      rw [hrest]
      simp
    exact absurd hline ((I.left hl).2 line hmem)
  · cases rest with
    | nil =>
        have hmem : line ∈ (cut (s.buffer ++ s.qemu.unread)).1 := by
          rw [← List.nil_append (cut _).1, ← hrest]
          exact List.mem_cons_self
        exact absurd hline ((I.left hl).2 line hmem)
    | cons l rest =>
        obtain ⟨rfl, rfl⟩ := List.cons.inj hrest
        rw [htext] at hf
        exact foldlM_confirmed hline (fun l hl => hafter l (List.mem_append_left _ hl)) hf

/-- **A confirmed shutdown is kept** in every run in which nothing the guest confirmed waits when
the loop finds QEMU gone: `clean` is set when the loop is left, and the app, if it is alive, is told
that the guest stopped. -/
theorem shutdown_kept (loads : Data → Option Json) (token : String) {s s' : Supervisor}
    {t : List (Event × List Effect)} (hs : Initial s)
    (h : Steps (fun s e o s' => s.step loads token e = some (o, s') ∧ Drained loads s e) s t s')
    (hl : Left s') (hc : Confirmed loads s'.qemu.written) :
    s'.clean = true ∧ (s'.phase = .report → s'.view = none →
      ∃ s'', s'.step loads token .run = some ([.request (vmStopped token)], s'')) := by
  have I : Reads loads s' :=
    h.invariant (fun I hstep => reads_step I hstep.2 hstep.1) hs.reads
  have hclean := I.clean hl hc
  refine ⟨hclean, fun hp hv => ⟨{ s' with phase := .done }, ?_⟩⟩
  simp only [step, run, hp, hclean, hv, if_true]

/-- `{"event":"SHUTDOWN","data":{"guest":true}}`. -/
def sampleLine : Data :=
  [0x7b, 0x22, 0x65, 0x76, 0x65, 0x6e, 0x74, 0x22, 0x3a, 0x22, 0x53, 0x48, 0x55, 0x54, 0x44, 0x4f,
    0x57, 0x4e, 0x22, 0x2c, 0x22, 0x64, 0x61, 0x74, 0x61, 0x22, 0x3a, 0x7b, 0x22, 0x67, 0x75, 0x65,
    0x73, 0x74, 0x22, 0x3a, 0x74, 0x72, 0x75, 0x65, 0x7d, 0x7d]

/-- `json.loads`, on that line. -/
def sampleLoads (line : Data) : Option Json :=
  if line = sampleLine then
    some (.obj [("event", .str "SHUTDOWN"), ("data", .obj [("guest", .bool true)])])
  else none

/-- The guest runs, and so do the children. -/
def sampleStart : Supervisor where
  phase := .poll
  stop := false
  shutdownDeadline := none
  videoRetries := []
  retries := []
  buffer := []
  clean := false
  now := 0
  video := none
  view := none
  qemu := ⟨none, [], false, []⟩

/-- The sample starts as a session does. -/
theorem initial_sampleStart : Initial sampleStart :=
  ⟨rfl, rfl, rfl, rfl, rfl, rfl, rfl, fun h => absurd rfl h⟩

/-- The sample line reports a clean end. -/
theorem confirms_sampleLine : Confirms sampleLoads sampleLine :=
  ⟨_, _, if_pos rfl, rfl, rfl, rfl⟩

/-- What the sample writes reports a clean end. -/
theorem confirmed_sampleLine : Confirmed sampleLoads (sampleLine ++ [10]) :=
  ⟨[], sampleLine, [], by decide +kernel, confirms_sampleLine, by simp⟩

instance : DecidablePred (Confirms sampleLoads) := fun line =>
  if h : line = sampleLine then .isTrue (h ▸ confirms_sampleLine)
  else .isFalse fun ⟨_, _, hl, _⟩ => by simp [sampleLoads, h] at hl

instance (s : Supervisor) (e : Event) : Decidable (Drained sampleLoads s e) :=
  inferInstanceAs (Decidable (_ → _ → _ → _))

/-- The event is written in two pieces while the supervisor waits in `select`, and QEMU exits after
it was read. -/
def sampleEvents : List Event :=
  [.run, .run, .run, .run, .run, .run, .write (sampleLine.take 20), .run, .recv 20,
    .run, .run, .run, .run, .run, .run, .write (sampleLine.drop 20 ++ [10]), .run, .recv 23,
    .exit 0, .run, .run]

/-- The sample run is left with the clean end noted. -/
theorem shutdown_kept_sample :
    ∃ s', Initial sampleStart ∧ Left s' ∧ Confirmed sampleLoads s'.qemu.written ∧
      s'.clean = true := by
  have hplay : (play (fun s e => if Drained sampleLoads s e then s.step sampleLoads "token" e
      else none) sampleStart sampleEvents).map (fun r => (r.2.phase, r.2.qemu.written)) =
        some (.report, sampleLine ++ [10]) := by
    decide +kernel
  obtain ⟨⟨t, s'⟩, hplay, hs'⟩ := Option.map_eq_some_iff.mp hplay
  obtain ⟨hp, hw⟩ : s'.phase = .report ∧ s'.qemu.written = sampleLine ++ [10] :=
    Prod.ext_iff.mp hs'
  have hleft : Left s' := .inr (.inl hp)
  have hc : Confirmed sampleLoads s'.qemu.written := hw ▸ confirmed_sampleLine
  exact ⟨s', initial_sampleStart, hleft, hc,
    (shutdown_kept sampleLoads "token" initial_sampleStart (Steps.of_play_guarded hplay)
      hleft hc).1⟩

/-- `select` times out; then QEMU writes the event and exits, and the next `poll` leaves the loop. -/
def lostEvents : List Event :=
  [.run, .run, .run, .run, .run, .run, .run, .write (sampleLine ++ [10]), .exit 0, .run]

/-- **A confirmed shutdown may be lost.** -/
theorem shutdown_lost : ¬ ∀ (loads : Data → Option Json) (token : String) (s s' : Supervisor)
    (t : List (Event × List Effect)), Initial s →
    Steps (fun s e o s' => s.step loads token e = some (o, s')) s t s' → Left s' →
    Confirmed loads s'.qemu.written → s'.clean = true := by
  intro hall
  have hplay : (play (step sampleLoads "token") sampleStart lostEvents).map
      (fun r => (r.2.phase, r.2.qemu.written, r.2.clean)) =
        some (.wait, sampleLine ++ [10], false) := by
    decide +kernel
  obtain ⟨⟨t, s'⟩, hplay, hs'⟩ := Option.map_eq_some_iff.mp hplay
  obtain ⟨hp, hw⟩ := Prod.ext_iff.mp hs'
  obtain ⟨hw, hclean⟩ : s'.qemu.written = sampleLine ++ [10] ∧ s'.clean = false :=
    Prod.ext_iff.mp hw
  have hc : Confirmed sampleLoads s'.qemu.written := hw ▸ confirmed_sampleLine
  have htrue := hall sampleLoads "token" sampleStart s' t initial_sampleStart (Steps.of_play hplay)
    (.inl hp) hc
  exact Bool.false_ne_true (hclean.symm.trans htrue)

end Supervisor

end Ashacky.Session
