import Ashacky.Control.Channel

/-!
# Control — sessions, invocations and responses

What holds of the channel at any time, given the frames the brokers have sent.

* `ControlChannel.Inv`: every session was opened once, in one generation; every invocation was made
  for a request of its session, under an id that the session has passed; and every line that is
  queued or written answers a hello or a request.
* `Inv.handle`: handling the object of a frame keeps it.
* `Inv.receive`: so does receiving any bytes of the stream of frames.
* `Inv.complete`, `Inv.wrote`, `Inv.writeTimeout`, `Inv.close`: the other events keep it.
-/

namespace Ashacky.Control
open Ashacky.Support

/-- The frames of the brokers, as the host reads them. -/
def hostWire (S : Setting) : Wire GuestFrame Object := S.toHost.wire GuestFrame.entries

/-- A service is known by its name. -/
theorem serviceOf_name (service : Service) : serviceOf service.name = some service := by
  cases service <;> decide

/-- Only an integer reads as one. -/
theorem integer_eq_some {j : Json} {n : Int} (h : integer j = some n) : j = .int n := by
  cases j with
  | int m =>
      simp only [integer] at h
      split at h
      · rw [Option.some.inj h]
      · cases h
  | null | bool | float | str | arr | obj => cases h

/-- Only an object reads as one. -/
theorem object_eq_some {j : Json} {m : Object} (h : j.object = some m) : j = .obj m := by
  cases j with
  | obj m' => rw [Option.some.inj h]
  | null | bool | int | float | str | arr => cases h

/-- The invocation was made for the request: same session, id and service, and its payload as the
host reads it. -/
def Invocation.For (S : Setting) (i : Invocation) (r : LocalRequest) : Prop :=
  i.session = r.session ∧ i.id = r.id ∧ i.service = r.service ∧
    S.toHost.cross (.obj r.payload) = .obj i.payload

/-- The payload refuses a request. -/
def IsRefusal (payload : Object) : Prop :=
  payload = ControlChannel.supervisorRequired ∨ payload = ControlChannel.busy

/-- What stands behind a frame of the host: the session of a welcome was opened for its nonce, and a
response carries the result of an invocation under its id, or refuses the request with that id. -/
def HostFrame.Sound (H : History) : HostFrame → Prop
  | .welcome nonce session _ => ∃ o ∈ H.opened, o.session = session ∧ o.nonce = nonce
  | .response session id payload none =>
      IsRefusal payload ∧ ⟨session, id, payload⟩ ∈ H.refusals
  | .response session id payload (some n) =>
      (n, payload) ∈ H.results ∧ ∃ i, H.invocations[n]? = some i ∧ i.session = session ∧ i.id = id
  | .reset => True

/-- The second history continues the first. -/
structure History.Continues (H H' : History) : Prop where
  opened : H.opened ⊆ H'.opened
  invocations : H.invocations <+: H'.invocations
  results : H.results ⊆ H'.results
  refusals : H.refusals ⊆ H'.refusals

theorem History.Continues.refl (H : History) : H.Continues H :=
  ⟨fun _ h => h, List.prefix_refl _, fun _ h => h, fun _ h => h⟩

/-- Histories that continue each other compose. -/
theorem History.Continues.trans {H H₁ H' : History} (h : H.Continues H₁) (h' : H₁.Continues H') :
    H.Continues H' :=
  ⟨fun _ ho => h'.opened (h.opened ho), h.invocations.trans h'.invocations,
    fun _ hr => h'.results (h.results hr), fun _ hr => h'.refusals (h.refusals hr)⟩

/-- An invocation keeps its number. -/
theorem History.Continues.invocation {H H' : History} (h : H.Continues H') {n : Nat}
    {i : Invocation} (hi : H.invocations[n]? = some i) : H'.invocations[n]? = some i := by
  obtain ⟨t, ht⟩ := h.invocations
  rw [← ht, List.getElem?_append_left (List.getElem?_eq_some_iff.mp hi).1]
  exact hi

/-- Opening a session continues the history. -/
theorem History.Continues.opens (H : History) (o : Opened) :
    H.Continues { H with opened := H.opened ++ [o] } :=
  { History.Continues.refl H with opened := List.subset_append_left _ _ }

theorem History.Continues.invokes (H : History) (i : Invocation) :
    H.Continues { H with invocations := H.invocations ++ [i] } :=
  { History.Continues.refl H with invocations := List.prefix_append _ _ }

theorem History.Continues.completes (H : History) (e : Nat × Object) :
    H.Continues { H with results := H.results ++ [e] } :=
  { History.Continues.refl H with results := List.subset_append_left _ _ }

theorem History.Continues.refuses (H : History) (f : Refusal) :
    H.Continues { H with refusals := H.refusals ++ [f] } :=
  { History.Continues.refl H with refusals := List.subset_append_left _ _ }

/-- A sound frame stays sound. -/
theorem HostFrame.Sound.mono {H H' : History} {f : HostFrame} (h : f.Sound H)
    (hH : H.Continues H') : f.Sound H' := by
  match f, h with
  | .welcome _ _ _, ⟨o, ho, h⟩ => exact ⟨o, hH.opened ho, h⟩
  | .response _ _ _ none, ⟨hr, hm⟩ => exact ⟨hr, hH.refusals hm⟩
  | .response _ _ _ (some n), ⟨hr, i, hi, h⟩ =>
      exact ⟨hH.results hr, i, hH.invocation hi, h⟩
  | .reset, _ => trivial

/-- The line is the text of a sound frame. -/
def Line.Sound (S : Setting) (H : History) (line : Line) : Prop :=
  line.frame.Sound H ∧ ∃ x, line.bytes = x ++ [10] ∧ S.toGuest.writes line.frame.entries x

theorem Line.Sound.mono {S : Setting} {H H' : History} {line : Line} (h : line.Sound S H)
    (hH : H.Continues H') : line.Sound S H' :=
  ⟨h.1.mono hH, h.2⟩

namespace ControlChannel

section

variable {c : ControlChannel} (F : Foundation)

@[simp] theorem history_drain : c.drain.history = c.history := by
  rw [drain]
  split <;> rfl

@[simp] theorem buffer_drain : c.drain.buffer = c.buffer := by
  rw [drain]
  split <;> rfl

@[simp] theorem history_enqueue (f : HostFrame) : (c.enqueue F f).history = c.history := by
  rw [enqueue]
  split
  · split
    · split
      · exact history_drain
      · rfl
    · rfl
  · rfl

/-- A frame is queued, or the channel closes and gives up what it has of a line. -/
theorem buffer_enqueue (f : HostFrame) :
    (c.enqueue F f).buffer = c.buffer ∨ (c.enqueue F f).buffer = [] := by
  rw [enqueue]
  split
  · split
    · split
      · exact .inl buffer_drain
      · exact .inr rfl
    · exact .inr rfl
  · exact .inr rfl

@[simp] theorem history_reply (id : Int) (payload : Object) (origin : Option Nat) :
    (c.reply F id payload origin).history = c.history := by
  rw [reply]
  split
  · exact history_enqueue F _
  · rfl

/-- A reply keeps what was received, or the channel fails and drops it. -/
theorem buffer_reply (id : Int) (payload : Object) (origin : Option Nat) :
    (c.reply F id payload origin).buffer = c.buffer ∨
      (c.reply F id payload origin).buffer = [] := by
  rw [reply]
  split
  · exact buffer_enqueue F _
  · exact .inl rfl

/-- A refusal continues the history, and keeps or drops what was received. -/
theorem refuse_continues (session : String) (id : Int) (payload : Object) :
    c.history.Continues (c.refuse F session id payload).history ∧
      ((c.refuse F session id payload).buffer = c.buffer ∨
        (c.refuse F session id payload).buffer = []) := by
  rw [refuse]
  refine ⟨?_, buffer_reply F _ _ _⟩
  rw [history_reply]
  exact .refuses _ _

/-- What handling an object does to the history and the buffer. -/
theorem handle_continues {token : String} {value : Object} {c' : ControlChannel}
    (hc : c.handle F token value = some c') :
    c.history.Continues c'.history ∧ (c'.buffer = c.buffer ∨ c'.buffer = []) := by
  rw [handle] at hc
  split at hc
  · split at hc
    · split at hc
      · cases hc
        rw [handleHello]
        refine ⟨?_, buffer_enqueue F _⟩
        rw [history_enqueue]
        exact .opens _ _
      · cases hc
    · cases hc
  · split at hc
    · split at hc
      · split at hc
        · rename_i id _ _ _ _ _ _
          cases hc
          rw [handleRequest]
          dsimp only
          split
          · exact refuse_continues (c := { c with lastRequest := id }) F _ _ _
          · split
            · exact ⟨.invokes _ _, .inl rfl⟩
            · exact refuse_continues (c := { c with lastRequest := id }) F _ _ _
        · cases hc
      · cases hc
    · cases hc

/-- A result continues the history, and keeps or drops what was received. -/
theorem complete_continues (n : Nat) (result : Object) :
    c.history.Continues (c.complete F n result).history ∧
      ((c.complete F n result).buffer = c.buffer ∨ (c.complete F n result).buffer = []) := by
  rw [complete]
  split
  · exact ⟨.refl _, .inl rfl⟩
  · dsimp only
    split
    · refine ⟨?_, buffer_reply F _ _ _⟩
      rw [history_reply]
      exact .completes _ _
    · exact ⟨.completes _ _, .inl rfl⟩

/-- The end of a write continues the history, and keeps or drops what was received. -/
theorem wrote_continues (expected : Nat) (line : Line) (success : Bool) :
    c.history.Continues (c.wrote expected line success).history ∧
      ((c.wrote expected line success).buffer = c.buffer ∨
        (c.wrote expected line success).buffer = []) := by
  rw [wrote]
  split
  · split
    · rw [history_drain, buffer_drain]
      exact ⟨.refl _, .inl rfl⟩
    · exact ⟨.refl _, .inr rfl⟩
  · exact ⟨.refl _, .inl rfl⟩

theorem writeTimeout_continues (expected : Nat) :
    c.history.Continues (c.writeTimeout expected).history ∧
      ((c.writeTimeout expected).buffer = c.buffer ∨ (c.writeTimeout expected).buffer = []) := by
  rw [writeTimeout]
  split
  · exact ⟨.refl _, .inr rfl⟩
  · exact ⟨.refl _, .inl rfl⟩

end

end ControlChannel

/-- What holds of an invocation, in the given generation and session. -/
structure Invoked (S : Setting) (sent : List GuestFrame) (sessions : List Opened)
    (generation : Nat) (session : Option String) (lastRequest : Int) (i : Invocation) : Prop where
  opened : ∃ o ∈ sessions, o.session = i.session ∧ o.generation = i.generation
  earlier : i.generation ≤ generation
  same : i.generation = generation → session = some i.session
  passed : session = some i.session → i.id ≤ lastRequest
  request : ∃ r, .request r ∈ sent ∧ i.For S r

namespace ControlChannel

/-- What holds of the channel. -/
structure Inv (S : Setting) (sent : List GuestFrame) (c : ControlChannel) : Prop where
  sessions : c.history.opened.map Opened.session =
    (List.range c.drawn).map S.foundation.uuidString
  current : ∀ s, c.session = some s →
    ∃ o ∈ c.history.opened, o.session = s ∧ o.generation = c.generation
  invoked : ∀ i ∈ c.history.invocations,
    Invoked S sent c.history.opened c.generation c.session c.lastRequest i
  distinct : (c.history.invocations.map fun i => (i.session, i.id)).Nodup
  queue : ∀ line ∈ c.queue, line.Sound S c.history
  output : ∀ line ∈ c.output, line.Sound S c.history

/-- The invariant holds of a new channel. -/
theorem inv_initial (S : Setting) : initial.Inv S [] where
  sessions := rfl
  current := by
    intro s hs
    cases hs
  invoked := by simp [initial]
  distinct := by simp [initial]
  queue := by simp [initial]
  output := by simp [initial]

section

variable {S : Setting} {sent : List GuestFrame} {c : ControlChannel}

/-- More frames have been sent. -/
theorem Inv.mono {sent' : List GuestFrame} (h : c.Inv S sent) (hs : sent ⊆ sent') :
    c.Inv S sent' where
  sessions := h.sessions
  current := h.current
  invoked := by
    intro i hi
    obtain ⟨ho, hg, hn, hp, r, hr, hf⟩ := h.invoked i hi
    exact ⟨ho, hg, hn, hp, r, hs hr, hf⟩
  distinct := h.distinct
  queue := h.queue
  output := h.output

/-- Closing the channel keeps the invariant. -/
theorem Inv.close (h : c.Inv S sent) : c.close.Inv S sent where
  sessions := h.sessions
  current := by
    intro s hs
    cases hs
  invoked := by
    intro i hi
    have hc := h.invoked i hi
    exact
      { opened := hc.opened
        earlier := hc.earlier.trans (Nat.le_succ _)
        same := fun he => absurd (he ▸ hc.earlier) (Nat.not_succ_le_self _)
        passed := fun hs => by cases hs
        request := hc.request }
  distinct := h.distinct
  queue := by
    intro line hl
    cases hl
  output := h.output

/-- The line of a reset is sound. -/
theorem sound_reset : Line.Sound S c.history ⟨.reset, resetText ++ [10]⟩ :=
  ⟨trivial, resetText, rfl, S.toGuest_reset⟩

/-- A failure of the channel keeps the invariant. -/
theorem Inv.fail (h : c.Inv S sent) : c.fail.Inv S sent :=
  { h.close with
    output := by
      intro line hl
      rcases List.mem_append.mp hl with hl | hl
      · exact h.output line hl
      · rw [List.mem_singleton.mp hl]
        exact sound_reset }

/-- Writing what is queued keeps the invariant. -/
theorem Inv.drain (h : c.Inv S sent) : c.drain.Inv S sent := by
  rw [ControlChannel.drain]
  split
  · rename_i line _ _ hq
    exact
      { h with
        output := by
          intro l hl
          rcases List.mem_append.mp hl with hl | hl
          · exact h.output l hl
          · rw [List.mem_singleton.mp hl]
            exact h.queue line (hq ▸ List.mem_cons_self) }
  · exact h

/-- Queueing a sound frame. -/
theorem Inv.enqueue (h : c.Inv S sent) {f : HostFrame} (hf : f.Sound c.history) :
    (c.enqueue S.foundation f).Inv S sent := by
  rw [ControlChannel.enqueue]
  split
  · rename_i bytes hb
    split
    · split
      · refine Inv.drain { h with queue := fun line hl => ?_ }
        rcases List.mem_append.mp hl with hl | hl
        · exact h.queue line hl
        · rw [List.mem_singleton.mp hl]
          exact ⟨hf, bytes, rfl, S.toGuest_writes hb⟩
      · exact h.fail
    · exact h.fail
  · exact h.fail

/-- A reply that something stands behind keeps the invariant. -/
theorem Inv.reply (h : c.Inv S sent) {id : Int} {payload : Object} {origin : Option Nat}
    (hf : ∀ s, c.session = some s → (HostFrame.response s id payload origin).Sound c.history) :
    (c.reply S.foundation id payload origin).Inv S sent := by
  rw [ControlChannel.reply]
  split
  · rename_i s hs
    exact h.enqueue (hf s hs)
  · exact h

theorem Inv.refuse (h : c.Inv S sent) {session : String} (hs : c.session = some session) {id : Int}
    {payload : Object} (hp : IsRefusal payload) :
    (c.refuse S.foundation session id payload).Inv S sent := by
  have hcont : c.history.Continues { c.history with
      refusals := c.history.refusals ++ [⟨session, id, payload⟩] } := .refuses _ _
  rw [ControlChannel.refuse]
  refine Inv.reply ?_ fun s he => ⟨hp, ?_⟩
  · exact
      { sessions := h.sessions
        current := h.current
        invoked := h.invoked
        distinct := h.distinct
        queue := fun line hl => (h.queue line hl).mono hcont
        output := fun line hl => (h.output line hl).mono hcont }
  · obtain rfl : session = s := Option.some.inj (hs.symm.trans he)
    exact List.mem_append_right _ (List.mem_singleton_self _)

/-- A session is opened for a hello. -/
theorem Inv.handleHello (h : c.Inv S sent) (hs : c.session = none) (token nonce : String) :
    (c.handleHello S.foundation token nonce).Inv S sent := by
  rw [ControlChannel.handleHello]
  have hnew : ∀ i ∈ c.history.invocations, i.session ≠ S.foundation.uuidString c.drawn := by
    intro i hi he
    obtain ⟨o, ho, hos, -⟩ := (h.invoked i hi).opened
    have hmem := List.mem_map_of_mem (f := Opened.session) ho
    rw [h.sessions, hos, he] at hmem
    obtain ⟨j, hj, heq⟩ := List.mem_map.mp hmem
    exact absurd (S.foundation.uuidString_inj heq) (List.mem_range.mp hj).ne
  have hcont : c.history.Continues { c.history with
      opened := c.history.opened ++ [⟨S.foundation.uuidString c.drawn, c.generation, nonce⟩] } :=
    .opens _ _
  refine Inv.enqueue ?_ ⟨_, List.mem_append_right _ (List.mem_singleton_self _), rfl, rfl⟩
  exact
    { sessions := by rw [List.map_append, h.sessions, List.range_succ, List.map_append]; rfl
      current := by
        rintro s ⟨⟩
        exact ⟨_, List.mem_append_right _ (List.mem_singleton_self _), rfl, rfl⟩
      invoked := by
        intro i hi
        have hc := h.invoked i hi
        obtain ⟨o, ho, hos⟩ := hc.opened
        refine ⟨⟨o, List.mem_append_left _ ho, hos⟩, hc.earlier, fun he => ?_, fun he => ?_,
          hc.request⟩
        · -- without a session no invocation is of this generation
          have := hc.same he
          rw [hs] at this
          cases this
        · exact absurd (Option.some.inj he).symm (hnew i hi)
      distinct := h.distinct
      queue := fun line hl => (h.queue line hl).mono hcont
      output := fun line hl => (h.output line hl).mono hcont }

/-- A request of the current session is refused, or handed to a handler. -/
theorem Inv.handleRequest (h : c.Inv S sent) {session : String} (hs : c.session = some session)
    {id : Int} (hid : id > c.lastRequest) {service : Service} {payload : Object}
    {r : LocalRequest} (hr : .request r ∈ sent)
    (hf : Invocation.For S ⟨c.generation, session, id, service, payload⟩ r) :
    (c.handleRequest S.foundation session id service payload).Inv S sent := by
  have hlast : ({ c with lastRequest := id } : ControlChannel).Inv S sent :=
    { h with
      invoked := by
        intro i hi
        have hc := h.invoked i hi
        exact ⟨hc.opened, hc.earlier, hc.same, fun he => (hc.passed he).trans hid.le, hc.request⟩ }
  have hcont : c.history.Continues { c.history with
      invocations := c.history.invocations ++ [⟨c.generation, session, id, service, payload⟩] } :=
    .invokes _ _
  rw [ControlChannel.handleRequest]
  split
  · exact hlast.refuse hs (.inl rfl)
  · split
    · refine
        { sessions := h.sessions
          current := h.current
          invoked := ?_
          distinct := ?_
          queue := fun line hl => (h.queue line hl).mono hcont
          output := fun line hl => (h.output line hl).mono hcont }
      · intro i hi
        rcases List.mem_append.mp hi with hi | hi
        · exact hlast.invoked i hi
        · obtain rfl := List.mem_singleton.mp hi
          obtain ⟨o, ho, hos, hog⟩ := h.current session hs
          exact ⟨⟨o, ho, hos, hog⟩, le_rfl, fun _ => hs, fun _ => le_rfl, r, hr, hf⟩
      · -- an id is passed only once in a session
        rw [List.map_append, List.nodup_append]
        refine ⟨h.distinct, List.nodup_singleton _, ?_⟩
        intro k hk k' hk' he
        obtain ⟨i, hi, rfl⟩ := List.mem_map.mp hk
        obtain rfl := List.mem_singleton.mp hk'
        obtain ⟨hes, hei⟩ := Prod.mk.inj he
        have := (h.invoked i hi).passed (hs.trans (congrArg some hes.symm))
        rw [hei] at this
        exact absurd this (not_le.mpr hid)
    · exact hlast.refuse hs (.inr rfl)

/-- **A handler completes**: its result is queued under the session and the id of its invocation, if
the generation is still that of the invocation. -/
theorem Inv.complete (h : c.Inv S sent) (n : Nat) (result : Object) :
    (c.complete S.foundation n result).Inv S sent := by
  rw [ControlChannel.complete]
  split
  · exact h
  · rename_i i hi
    have hcont : c.history.Continues { c.history with
        results := c.history.results ++ [(n, result)] } := .completes _ _
    have hdone : ∀ (active running : List _) (outstanding : Int), ({ c with
        outstanding, running, active
        history := { c.history with results := c.history.results ++ [(n, result)] } } :
          ControlChannel).Inv S sent := fun active running outstanding =>
      { sessions := h.sessions
        current := h.current
        invoked := h.invoked
        distinct := h.distinct
        queue := fun line hl => (h.queue line hl).mono hcont
        output := fun line hl => (h.output line hl).mono hcont }
    dsimp only
    split
    · rename_i hg
      refine (hdone _ _ _).reply fun s hs => ?_
      have hsame := (h.invoked i (List.mem_of_getElem? hi)).same hg.1.symm
      have hse : i.session = s := Option.some.inj (hsame.symm.trans hs)
      exact ⟨List.mem_append_right _ (List.mem_singleton_self _), i, hi, hse, rfl⟩
    · exact hdone _ _ _

theorem Inv.wrote (h : c.Inv S sent) (expected : Nat) (line : Line) (success : Bool) :
    (c.wrote expected line success).Inv S sent := by
  rw [ControlChannel.wrote]
  split
  · split
    · exact Inv.drain { h with queue := fun l hl => h.queue l (List.mem_of_mem_tail hl) }
    · exact h.fail
  · exact h

theorem Inv.writeTimeout (h : c.Inv S sent) (expected : Nat) :
    (c.writeTimeout expected).Inv S sent := by
  rw [ControlChannel.writeTimeout]
  split
  · exact h.fail
  · exact h

/-! ### Receiving -/

/-- **Handling the object of a frame** that was sent. -/
theorem Inv.handle (h : c.Inv S sent) {f : GuestFrame} (hf : f ∈ sent) {value : Object}
    (hv : (hostWire S).value f value) {token : String} {c' : ControlChannel}
    (hc : c.handle S.foundation token value = some c') : c'.Inv S sent := by
  rw [ControlChannel.handle] at hc
  split at hc
  · rename_i hs
    split at hc
    · split at hc
      · cases hc
        exact h.handleHello hs token _
      · cases hc
    · cases hc
  · rename_i session hs
    split at hc
    · rename_i hkind
      split at hc
      · rename_i id service payload hid hservice hpayload
        split at hc
        · rename_i hlast
          cases hc
          cases f with
          | hello nonce token =>
              have := Exchange.text_eq_none hv "session" rfl
              rw [hkind.1] at this
              cases this
          | request r =>
              have hsession : session = r.session := by
                have := Exchange.text_eq hv "session" rfl
                rw [hkind.1] at this
                exact Option.some.inj this
              have hservice' : service = r.service := by
                rw [Exchange.text_eq hv "service" rfl, Option.bind_some,
                  serviceOf_name] at hservice
                exact (Option.some.inj hservice).symm
              have hid' : id = r.id := by
                rw [hv "id"] at hid
                exact S.toHost.cross_int _ _ (integer_eq_some hid)
              have hpayload' : S.toHost.cross (.obj r.payload) = .obj payload := by
                rw [Object.object, hv "payload"] at hpayload
                exact object_eq_some hpayload
              exact h.handleRequest hs hlast hf ⟨hsession, hid', hservice', hpayload'⟩
        · cases hc
      · cases hc
    · cases hc

/-- **Receiving bytes of the stream of frames.** -/
theorem Inv.receive (token : String) {fs : List GuestFrame} {data rest : Data}
    (h : c.Inv S sent) (hb : 10 ∉ c.buffer)
    (hcar : (hostWire S).Carries fs (c.buffer ++ (data ++ rest))) (hfs : ∀ f ∈ fs, f ∈ sent) :
    (c.receive S.foundation token data).Inv S sent ∧
      c.history.Continues (c.receive S.foundation token data).history ∧
      10 ∉ (c.receive S.foundation token data).buffer ∧
      ∃ fs', (hostWire S).Carries fs' ((c.receive S.foundation token data).buffer ++ rest) ∧
        ∀ f ∈ fs', f ∈ sent := by
  induction data generalizing c fs with
  | nil => exact ⟨h, .refl _, hb, fs, hcar, hfs⟩
  | cons byte data ih =>
      -- a failed channel starts again behind the data
      have hfail : ∀ (c' : ControlChannel), c'.Inv S sent → c.history.Continues c'.history →
          c'.fail.Inv S sent ∧ c.history.Continues c'.fail.history ∧ 10 ∉ c'.fail.buffer ∧
            ∃ fs', (hostWire S).Carries fs' (c'.fail.buffer ++ rest) ∧ ∀ f ∈ fs', f ∈ sent := by
        intro c' hc' hH
        obtain ⟨fs', hsub, hd⟩ := hcar.drop (c.buffer.length + (byte :: data).length)
        rw [← List.drop_drop, List.drop_left, List.drop_left] at hd
        exact ⟨hc'.fail, hH, by simp [ControlChannel.fail, ControlChannel.close], fs', hd,
          fun f hf => hfs f (hsub.subset hf)⟩
      rw [ControlChannel.receive]
      by_cases hbyte : byte = 10
      · rw [if_pos hbyte]
        subst hbyte
        obtain ⟨f, fs', rfl, hread, hcar'⟩ := hcar.read_line hb
        have hempty : ({ c with buffer := [] } : ControlChannel).Inv S sent := { h with }
        cases hline : ({ c with buffer := [] } : ControlChannel).receiveLine S.foundation token
            c.buffer with
        | none => exact hfail _ hempty (.refl _)
        | some c' =>
            rw [receiveLine] at hline
            split at hline
            · rename_i value hvalue
              split at hline
              · rw [← S.toHost_read] at hvalue
                have hc' := hempty.handle (hfs f List.mem_cons_self) (hread value hvalue) hline
                obtain ⟨hH, hbuf⟩ := handle_continues S.foundation hline
                have hbuf : c'.buffer = [] := hbuf.elim id id
                obtain ⟨hi, hH', hb', hs⟩ := ih hc' (by simp [hbuf])
                  (by rw [hbuf]; exact hcar') fun f hf => hfs f (List.mem_cons_of_mem _ hf)
                exact ⟨hi, hH.trans hH', hb', hs⟩
              · cases hline
            · cases hline
      · rw [if_neg hbyte]
        by_cases hlen : c.buffer.length < maximumFrame
        · rw [if_pos hlen]
          refine ih { h with } ?_ ?_ hfs
          · simp only [List.mem_append, List.mem_singleton, not_or]
            exact ⟨hb, fun he => hbyte he.symm⟩
          · simpa using hcar
        · rw [if_neg hlen]
          exact hfail c h (.refl _)

end

end ControlChannel

end Ashacky.Control
