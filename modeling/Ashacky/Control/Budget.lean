import Ashacky.Control.Workers
import Ashacky.Control.Correlation

/-!
# Control — the worker budget of the channel

The channel alone, over any sequence of its events: any bytes arrive, it is closed or fails, writes
and handlers complete.  A handler completes at most once, at any later time, and perhaps under a
later generation.

* `Ledger`: a channel with the requests accepted so far, those settled while their generation lasted,
  and those replied to, which are read off the lines it queues for the port.
* `Ledger.Inv.line`, `Ledger.Inv.complete`: handling a line, and the completion of a handler.
* `worker_budget`: what holds in every state of every run; in particular the requests replied to are
  those settled, each once.
-/

namespace Ashacky.Control
open Ashacky.Support

/-! ### What one move settles -/

/-- The id that a response answers. -/
def HostFrame.answers : HostFrame → Option Int
  | .response _ id _ _ => some id
  | .welcome _ _ _ => none
  | .reset => none

namespace ControlChannel

/-- The requests accepted between two states, to be handled or to be refused. -/
def acceptedIn (c c' : ControlChannel) : List (Nat × Int) :=
  ((c'.history.invocations.drop c.history.invocations.length).map Invocation.id ++
    (c'.history.refusals.drop c.history.refusals.length).map Refusal.id).map (c.generation, ·)

/-- The requests refused between two states, and those of the generation whose handler completed.  A
generation that ends in between has failed to queue the response. -/
def settledIn (c c' : ControlChannel) : List (Nat × Int) :=
  if c'.generation = c.generation then
    ((c'.history.refusals.drop c.history.refusals.length).map Refusal.id ++
      (c'.history.results.drop c.history.results.length).filterMap fun e =>
        (c'.history.invocations[e.1]?).bind fun i =>
          if i.generation = c.generation then some i.id else none).map (c.generation, ·)
  else []

/-- The responses queued for the port between two states. -/
def repliesIn (c c' : ControlChannel) : List (Nat × Int) :=
  ((c'.lines.drop c.lines.length).filterMap fun line => line.frame.answers).map (c.generation, ·)

variable {c c' : ControlChannel}

theorem repliesIn_of_lines {new : List Line} (h : c'.lines = c.lines ++ new) :
    c.repliesIn c' = (new.filterMap fun line => line.frame.answers).map (c.generation, ·) := by
  rw [repliesIn, h, List.drop_left]

theorem repliesIn_eq_nil (h : c'.lines = c.lines) : c.repliesIn c' = [] := by
  rw [repliesIn, h, List.drop_length]
  rfl

/-- A channel that ends its generation replies to nothing more. -/
theorem repliesIn_close : c.repliesIn c.close = [] := by
  have hlen : c.close.lines.length ≤ c.lines.length := by
    simp [lines, close]
  rw [repliesIn, List.drop_of_length_le hlen]
  rfl

theorem repliesIn_fail {c₀ : ControlChannel} (h : c₀.lines = c.lines) :
    c.repliesIn c₀.fail = [] := by
  have hlines : c₀.fail.lines = c₀.output ++ [⟨.reset, resetText ++ [10]⟩] := by
    simp [lines, fail, close]
  have hle : c₀.output.length ≤ c.lines.length := by
    rw [← h]
    simp [lines]
  rw [repliesIn, hlines, List.drop_append, List.drop_of_length_le hle, List.nil_append]
  rcases Nat.eq_zero_or_pos (c.lines.length - c₀.output.length) with hz | hpos
  · rw [hz]
    rfl
  · rw [List.drop_of_length_le (by rw [List.length_singleton]; exact hpos)]
    rfl

end ControlChannel

/-- A channel, with what has become of the requests: each by its generation and id. -/
structure Ledger where
  channel : ControlChannel
  accepted : List (Nat × Int)
  settled : List (Nat × Int)
  replies : List (Nat × Int)

namespace Ledger

open ControlChannel

def initial : Ledger := ⟨.initial, [], [], []⟩

/-- The channel moves to the given state. -/
def note (L : Ledger) (c : ControlChannel) : Ledger where
  channel := c
  accepted := L.accepted ++ L.channel.acceptedIn c
  settled := L.settled ++ L.channel.settledIn c
  replies := L.replies ++ L.channel.repliesIn c

/-- The invariant. -/
structure Inv (L : Ledger) : Prop where
  workers : L.channel.Workers
  writer : L.channel.Writer
  replies : L.replies = L.settled
  nodup : L.settled.Nodup
  known : L.settled ⊆ L.accepted
  running : ∀ n i, n ∈ L.channel.running → L.channel.history.invocations[n]? = some i →
    (i.generation, i.id) ∉ L.settled
  increasing : L.accepted.Pairwise fun a b => a.1 ≤ b.1 ∧ (a.1 = b.1 → a.2 < b.2)
  past : ∀ a ∈ L.accepted, a.1 ≤ L.channel.generation ∧
    (a.1 = L.channel.generation → a.2 ≤ L.channel.lastRequest)
  invoked : ∀ i ∈ L.channel.history.invocations, (i.generation, i.id) ∈ L.accepted

theorem inv_initial : initial.Inv where
  workers := by
    refine ⟨rfl, Nat.zero_le _, List.nodup_nil, ?_, ?_, List.nodup_nil, ?_, .nil, ?_⟩ <;>
      simp [initial, ControlChannel.initial]
  writer := by
    refine ⟨?_, ?_, rfl⟩ <;> simp [initial, ControlChannel.initial]
  replies := rfl
  nodup := List.nodup_nil
  known := List.Subset.refl _
  running := by
    intro n i hn
    cases hn
  increasing := .nil
  past := by
    intro a ha
    cases ha
  invoked := by
    intro i hi
    cases hi

variable {L : Ledger} {c : ControlChannel}

/-- A move that accepts and settles nothing. -/
theorem Inv.quiet (h : L.Inv) (hw : c.Workers) (hq : c.Writer)
    (hi : c.history.invocations = L.channel.history.invocations)
    (hf : c.history.refusals = L.channel.history.refusals) (hs : L.channel.settledIn c = [])
    (hr : L.channel.repliesIn c = []) (hrun : c.running ⊆ L.channel.running)
    (hg : L.channel.generation ≤ c.generation)
    (hl : c.generation = L.channel.generation → L.channel.lastRequest ≤ c.lastRequest) :
    (L.note c).Inv := by
  have ha : L.channel.acceptedIn c = [] := by simp [acceptedIn, hi, hf]
  rw [note, ha, hs, hr, List.append_nil, List.append_nil, List.append_nil]
  refine ⟨hw, hq, h.replies, h.nodup, h.known, ?_, h.increasing, ?_, ?_⟩
  · intro n i hn hi'
    rw [hi] at hi'
    exact h.running n i (hrun hn) hi'
  · intro a ha
    obtain ⟨hle, hlast⟩ := h.past a ha
    refine ⟨hle.trans hg, fun he => ?_⟩
    have hsame : c.generation = L.channel.generation := le_antisymm (he ▸ hle) hg
    exact (hlast (he.trans hsame)).trans (hl hsame)
  · rw [hi]
    exact h.invoked

/-- A move that leaves the handlers as they are. -/
theorem Inv.like (h : L.Inv) (hl : Like L.channel c) (hq : c.Writer)
    (hr : L.channel.repliesIn c = []) : (L.note c).Inv := by
  refine h.quiet (h.workers.like hl) hq (by rw [hl.history]) (by rw [hl.history]) ?_ hr ?_ ?_ ?_
  · simp [settledIn, hl.history]
  · rw [hl.running]
    exact List.Subset.refl _
  · exact hl.generation.ge
  · intro _
    exact hl.lastRequest.ge

/-- The generation ends, of a channel that differs in its buffer or its writes only. -/
theorem Inv.fail (h : L.Inv) {c₀ : ControlChannel} (hl : Like L.channel c₀)
    (hp : ∀ w ∈ c₀.writes, w.1 ≤ c₀.generation) (hlines : c₀.lines = L.channel.lines) :
    (L.note c₀.fail).Inv := by
  have hne : c₀.fail.generation ≠ L.channel.generation := by
    rw [← hl.generation]
    exact Nat.succ_ne_self _
  refine h.quiet ((h.workers.like hl).fail) (writer_fail hp) ?_ ?_ ?_ (repliesIn_fail hlines) ?_ ?_ ?_
  · exact congrArg History.invocations hl.history
  · exact congrArg History.refusals hl.history
  · rw [settledIn, if_neg hne]
  · rw [show c₀.fail.running = L.channel.running from hl.running]
    exact List.Subset.refl _
  · rw [← hl.generation]
    exact Nat.le_succ _
  · intro he
    exact absurd he hne

theorem Inv.close (h : L.Inv) : (L.note L.channel.close).Inv := by
  have hne : L.channel.close.generation ≠ L.channel.generation := Nat.succ_ne_self _
  refine h.quiet h.workers.close (writer_close h.writer.past) rfl rfl ?_ repliesIn_close (List.Subset.refl _)
    (Nat.le_succ _) fun he => absurd he hne
  rw [settledIn, if_neg hne]

/-- An id that has not been passed is new. -/
theorem Inv.fresh (h : L.Inv) {id : Int} (hid : L.channel.lastRequest < id) :
    (L.channel.generation, id) ∉ L.accepted := by
  intro hmem
  exact absurd ((h.past _ hmem).2 rfl) (not_le.mpr hid)

/-- A move that accepts a request, and may settle it at once. -/
theorem Inv.accepts (h : L.Inv) (hw : c.Workers) (hq : c.Writer) {id : Int}
    (hid : L.channel.lastRequest < id)
    (ha : L.channel.acceptedIn c = [(L.channel.generation, id)])
    (hs : L.channel.repliesIn c = L.channel.settledIn c)
    (hnew : L.channel.settledIn c = [] ∨
      (L.channel.settledIn c = [(L.channel.generation, id)] ∧
        c.running = L.channel.running ∧
        c.history.invocations = L.channel.history.invocations))
    (hrun : ∀ n i, n ∈ c.running → c.history.invocations[n]? = some i →
      (n ∈ L.channel.running ∧ L.channel.history.invocations[n]? = some i) ∨
        (i.generation, i.id) = (L.channel.generation, id))
    (hinv : ∀ i ∈ c.history.invocations, i ∈ L.channel.history.invocations ∨
      (i.generation, i.id) = (L.channel.generation, id))
    (hg : L.channel.generation ≤ c.generation)
    (hl : c.generation = L.channel.generation → c.lastRequest = id) :
    (L.note c).Inv := by
  -- The id is above all those that were accepted, so that it was not settled before.
  have hfresh := h.fresh hid
  refine ⟨hw, hq, ?_, ?_, ?_, ?_, ?_, ?_, ?_⟩
  · simp only [note]
    rw [hs, h.replies]
  · simp only [note]
    rcases hnew with hnew | ⟨hnew, -⟩
    · rw [hnew, List.append_nil]
      exact h.nodup
    · rw [hnew]
      refine List.nodup_append.mpr ⟨h.nodup, List.nodup_singleton _, ?_⟩
      intro a ha b hb
      rw [List.mem_singleton.mp hb]
      rintro rfl
      exact hfresh (h.known ha)
  · simp only [note]
    rw [ha]
    intro a hmem
    rcases List.mem_append.mp hmem with hmem | hmem
    · exact List.mem_append_left _ (h.known hmem)
    · rcases hnew with hnew | ⟨hnew, -⟩
      · rw [hnew] at hmem
        cases hmem
      · rw [hnew] at hmem
        exact List.mem_append_right _ hmem
  · intro n i hn hi hmem
    simp only [note] at hn hi hmem
    rcases List.mem_append.mp hmem with hmem | hmem
    · rcases hrun n i hn hi with ⟨hn, hi⟩ | heq
      · exact h.running n i hn hi hmem
      · rw [heq] at hmem
        exact hfresh (h.known hmem)
    · rcases hnew with hnew | ⟨hnew, hsame, hinvs⟩
      · rw [hnew] at hmem
        cases hmem
      · -- a refused request has no handler
        rw [hnew, List.mem_singleton] at hmem
        rw [hinvs] at hi
        have := h.invoked i (List.mem_of_getElem? hi)
        rw [hmem] at this
        exact hfresh this
  · simp only [note]
    rw [ha]
    refine List.pairwise_append.mpr ⟨h.increasing, List.pairwise_singleton _ _, ?_⟩
    intro a ha b hb
    rw [List.mem_singleton.mp hb]
    obtain ⟨hle, hlast⟩ := h.past a ha
    exact ⟨hle, fun he => (hlast he).trans_lt hid⟩
  · simp only [note]
    rw [ha]
    intro a hmem
    rcases List.mem_append.mp hmem with hmem | hmem
    · obtain ⟨hle, hlast⟩ := h.past a hmem
      refine ⟨hle.trans hg, fun he => ?_⟩
      have hsame : c.generation = L.channel.generation := le_antisymm (he ▸ hle) hg
      rw [hl hsame]
      exact (hlast (he.trans hsame)).trans hid.le
    · rw [List.mem_singleton.mp hmem]
      exact ⟨hg, fun he => (hl he.symm).ge⟩
  · simp only [note]
    rw [ha]
    intro i hi
    rcases hinv i hi with hi | heq
    · exact List.mem_append_left _ (h.invoked i hi)
    · rw [heq]
      exact List.mem_append_right _ (List.mem_singleton_self _)

/-- The request is refused. -/
theorem Inv.refuse (h : L.Inv) (F : Foundation) {c₀ : ControlChannel} (hc : Like L.channel c₀)
    (hq : c₀.Writer) (hlines : c₀.lines = L.channel.lines) {session : String}
    (hs : c₀.session = some session) {id : Int} (hid : id > c₀.lastRequest) (payload : Object) :
    (L.note (({ c₀ with lastRequest := id } : ControlChannel).refuse F session id payload)).Inv := by
  set c₁ : ControlChannel := { c₀ with
    lastRequest := id
    history := { c₀.history with refusals := c₀.history.refusals ++ [⟨session, id, payload⟩] } }
  have hrefuse : ({ c₀ with lastRequest := id } : ControlChannel).refuse F session id payload =
      c₁.enqueue F (.response session id payload none) :=
    reply_eq F (c := c₁) hs id payload none
  have hw₀ := h.workers.like hc
  have hw₁ : c₁.Workers :=
    { hw₀ with
      past := by
        intro i hi
        obtain ⟨hle, hpast⟩ := hw₀.past i hi
        exact ⟨hle, fun hg => ⟨(hpast hg).1.trans hid.le, (hpast hg).2⟩⟩ }
  have hq₁ : c₁.Writer := ⟨hq.writing, hq.past, hq.one⟩
  have hlines₁ : c₁.lines = L.channel.lines := hlines
  have hg₁ : c₁.generation = L.channel.generation := hc.generation
  have hinv₁ : c₁.history.invocations = L.channel.history.invocations := by
    rw [← hc.history]
  have hres₁ : c₁.history.results = L.channel.history.results := by
    rw [← hc.history]
  have href₁ : c₁.history.refusals =
      L.channel.history.refusals ++ [⟨session, id, payload⟩] := by
    rw [← hc.history]
  have hrun₁ : c₁.running = L.channel.running := hc.running
  have hid' : L.channel.lastRequest < id := hc.lastRequest ▸ hid
  rw [hrefuse]
  rcases enqueue_cases F (.response session id payload none) hq₁ with
    ⟨bytes, hlines', hlike, hq'⟩ | hfail
  · set c' := c₁.enqueue F (.response session id payload none)
    have hreplies : L.channel.repliesIn c' = [(L.channel.generation, id)] := by
      rw [repliesIn_of_lines (hlines'.trans (by rw [hlines₁]))]
      rfl
    have hsettled : L.channel.settledIn c' = [(L.channel.generation, id)] := by
      rw [settledIn, if_pos (hlike.generation.trans hg₁), hlike.history, href₁, hres₁,
        List.drop_left, List.drop_length]
      rfl
    refine h.accepts (hw₁.like hlike) hq' hid' ?_ (hreplies.trans hsettled.symm)
      (.inr ⟨hsettled, hlike.running.trans hrun₁, by rw [hlike.history, hinv₁]⟩) ?_ ?_ ?_ ?_
    · rw [acceptedIn, hlike.history, href₁, hinv₁, List.drop_left, List.drop_length]
      rfl
    · intro n i hn hi
      rw [hlike.history, hinv₁] at hi
      rw [hlike.running, hrun₁] at hn
      exact .inl ⟨hn, hi⟩
    · intro i hi
      rw [hlike.history, hinv₁] at hi
      exact .inl hi
    · exact (hlike.generation.trans hg₁).ge
    · intro _
      exact hlike.lastRequest
  -- There is no room for the refusal, and another generation begins.
  · rw [hfail]
    have hne : c₁.fail.generation ≠ L.channel.generation := by
      rw [← hg₁]
      exact Nat.succ_ne_self _
    have hsettled : L.channel.settledIn c₁.fail = [] := by rw [settledIn, if_neg hne]
    refine h.accepts hw₁.fail (writer_fail hq₁.past) hid' ?_ ((repliesIn_fail hlines₁).trans hsettled.symm)
      (.inl hsettled) ?_ ?_ ?_ fun he => absurd he hne
    · change ((c₁.history.invocations.drop _).map _ ++ (c₁.history.refusals.drop _).map _).map _ = _
      rw [href₁, hinv₁, List.drop_left, List.drop_length]
      rfl
    · intro n i hn hi
      exact .inl ⟨hrun₁ ▸ hn, hinv₁ ▸ hi⟩
    · intro i hi
      exact .inl (hinv₁ ▸ hi)
    · rw [← hg₁]
      exact Nat.le_succ _

/-- The request is handed to a handler, or refused. -/
theorem Inv.handleRequest (h : L.Inv) (F : Foundation) {c₀ : ControlChannel}
    (hc : Like L.channel c₀) (hq : c₀.Writer) (hlines : c₀.lines = L.channel.lines)
    {session : String} (hs : c₀.session = some session) {id : Int} (hid : id > c₀.lastRequest)
    (service : Service) (payload : Object) :
    (L.note (c₀.handleRequest F session id service payload)).Inv := by
  rw [ControlChannel.handleRequest]
  split
  · exact h.refuse F hc hq hlines hs hid supervisorRequired
  · split
    · rename_i hfew
      have hinv : c₀.history.invocations = L.channel.history.invocations := by rw [hc.history]
      have href : c₀.history.refusals = L.channel.history.refusals := by rw [hc.history]
      have hres : c₀.history.results = L.channel.history.results := by rw [hc.history]
      refine h.accepts ((h.workers.like hc).dispatch hs hid hfew service payload)
        ⟨hq.writing, hq.past, hq.one⟩ (hc.lastRequest ▸ hid) ?_ ?_ (.inl ?_) ?_ ?_ hc.generation.ge
        fun _ => rfl
      · simp only [acceptedIn]
        rw [hinv, href, List.drop_left, List.drop_length]
        rfl
      · rw [repliesIn_eq_nil (by exact hlines)]
        simp [settledIn, href, hres]
      · simp [settledIn, href, hres]
      · intro n i hn hi
        dsimp only at hn hi
        rw [hinv] at hn hi
        rcases List.mem_append.mp hn with hn | hn
        · have hlt := ((h.workers.running n).mp (hc.running ▸ hn)).1
          rw [List.getElem?_append_left hlt] at hi
          exact .inl ⟨hc.running ▸ hn, hi⟩
        · rw [List.mem_singleton.mp hn] at hi
          simp only [List.getElem?_concat_length, Option.some.injEq] at hi
          rw [← hi, hc.generation]
          exact .inr rfl
      · intro i hi
        rcases List.mem_append.mp hi with hi | hi
        · exact .inl (hinv ▸ hi)
        · rw [List.mem_singleton.mp hi, hc.generation]
          exact .inr rfl
    · exact h.refuse F hc hq hlines hs hid busy

/-- A session is opened. -/
theorem Inv.handleHello (h : L.Inv) (F : Foundation) {c₀ : ControlChannel}
    (hc : Like L.channel c₀) (hq : c₀.Writer) (hlines : c₀.lines = L.channel.lines)
    (token nonce : String) : (L.note (c₀.handleHello F token nonce)).Inv := by
  rw [ControlChannel.handleHello]
  dsimp only
  have hw₀ := h.workers.like hc
  set c₁ : ControlChannel := { c₀ with
    session := some (F.uuidString c₀.drawn)
    drawn := c₀.drawn + 1
    history := { c₀.history with
      opened := c₀.history.opened ++ [⟨F.uuidString c₀.drawn, c₀.generation, nonce⟩] } }
  have hw₁ : c₁.Workers :=
    { hw₀ with
      past := by
        intro i hi
        obtain ⟨hle, hpast⟩ := hw₀.past i hi
        exact ⟨hle, fun hg => ⟨(hpast hg).1, rfl⟩⟩ }
  have hq₁ : c₁.Writer := ⟨hq.writing, hq.past, hq.one⟩
  have hlines₁ : c₁.lines = L.channel.lines := hlines
  have hinv₁ : c₁.history.invocations = L.channel.history.invocations := by rw [← hc.history]
  have href₁ : c₁.history.refusals = L.channel.history.refusals := by rw [← hc.history]
  have hres₁ : c₁.history.results = L.channel.history.results := by rw [← hc.history]
  have hg₁ : c₁.generation = L.channel.generation := hc.generation
  have hrun₁ : c₁.running = L.channel.running := hc.running
  rcases enqueue_cases F (.welcome nonce (F.uuidString c₀.drawn) token) hq₁ with
    ⟨bytes, hlines', hlike, hq'⟩ | hfail
  · refine h.quiet (hw₁.like hlike) hq' ?_ ?_ ?_ ?_ ?_ ?_ ?_
    · rw [hlike.history, hinv₁]
    · rw [hlike.history, href₁]
    · simp [settledIn, href₁, hres₁]
    · rw [repliesIn_of_lines (hlines'.trans (by rw [hlines₁]))]
      rfl
    · rw [hlike.running, hrun₁]
      exact List.Subset.refl _
    · exact (hlike.generation.trans hg₁).ge
    · intro _
      exact (hlike.lastRequest.trans hc.lastRequest).ge
  · rw [hfail]
    have hne : c₁.fail.generation ≠ L.channel.generation := by
      rw [← hg₁]
      exact Nat.succ_ne_self _
    refine h.quiet hw₁.fail (writer_fail hq₁.past) hinv₁ href₁ ?_ (repliesIn_fail hlines₁) ?_ ?_
      fun he => absurd he hne
    · rw [settledIn, if_neg hne]
    · rw [show c₁.fail.running = L.channel.running from hrun₁]
      exact List.Subset.refl _
    · rw [← hg₁]
      exact Nat.le_succ _

/-- **A line** that is handled. -/
theorem Inv.line (h : L.Inv) (F : Foundation) {token : String} {line : Data}
    {c₀ : ControlChannel} (hc : Like L.channel c₀) (hq : c₀.Writer)
    (hlines : c₀.lines = L.channel.lines) (hl : c₀.receiveLine F token line = some c) :
    (L.note c).Inv := by
  rw [receiveLine] at hl
  split at hl
  · split at hl
    · rw [handle] at hl
      split at hl
      · split at hl
        · split at hl
          · cases hl
            exact h.handleHello F hc hq hlines token _
          · cases hl
        · cases hl
      · rename_i session hs
        split at hl
        · split at hl
          · split at hl
            · rename_i hid
              cases hl
              exact h.handleRequest F hc hq hlines hs hid _ _
            · cases hl
          · cases hl
        · cases hl
    · cases hl
  · cases hl

/-- **A handler completes.** -/
theorem Inv.complete (h : L.Inv) (F : Foundation) {n : Nat} (hn : n ∈ L.channel.running)
    (result : Object) : (L.note (L.channel.complete F n result)).Inv := by
  have hlt := ((h.workers.running n).mp hn).1
  obtain ⟨i, hi⟩ : ∃ i, L.channel.history.invocations[n]? = some i :=
    ⟨_, List.getElem?_eq_getElem hlt⟩
  rw [h.workers.complete_eq F hn hi result]
  have hw₁ := h.workers.finish hn hi result
  dsimp only
  set c₁ : ControlChannel := { L.channel with
    outstanding := L.channel.outstanding - 1
    running := L.channel.running.erase n
    active := if L.channel.generation = i.generation then L.channel.active.erase i.id
      else L.channel.active
    history := { L.channel.history with
      results := L.channel.history.results ++ [(n, result)] } }
  have hq₁ : c₁.Writer := ⟨h.writer.writing, h.writer.past, h.writer.one⟩
  have hsub : c₁.running ⊆ L.channel.running := List.erase_subset
  -- The result of a handler of an earlier generation is dropped.
  by_cases hg : L.channel.generation = i.generation
  · rw [if_pos hg]
    obtain ⟨session, hs⟩ := Option.isSome_iff_exists.mp
      ((h.workers.past i (List.mem_of_getElem? hi)).2 hg.symm).2
    rw [reply_eq F (c := c₁) hs]
    rcases enqueue_cases F (.response session i.id result (some n)) hq₁ with
      ⟨bytes, hlines', hlike, hq'⟩ | hfail
    · set c' := c₁.enqueue F (.response session i.id result (some n))
      have hreplies : L.channel.repliesIn c' = [(L.channel.generation, i.id)] := by
        rw [repliesIn_of_lines (c := L.channel) hlines']
        rfl
      have hsettled : L.channel.settledIn c' = [(L.channel.generation, i.id)] := by
        rw [settledIn, if_pos hlike.generation, hlike.history]
        simp [c₁, hi, hg]
      have haccepted : L.channel.acceptedIn c' = [] := by
        rw [acceptedIn, hlike.history]
        simp [c₁]
      -- While a handler runs, its request is not settled.
      have hown : (L.channel.generation, i.id) ∉ L.settled := hg ▸ h.running n i hn hi
      rw [note, haccepted, hreplies, hsettled, List.append_nil]
      refine ⟨hw₁.like hlike, hq', ?_, ?_, ?_, ?_, h.increasing, ?_, ?_⟩
      · dsimp only
        rw [h.replies]
      · refine List.nodup_append.mpr ⟨h.nodup, List.nodup_singleton _, ?_⟩
        intro a ha b hb
        rw [List.mem_singleton.mp hb]
        rintro rfl
        exact hown ha
      · intro a ha
        rcases List.mem_append.mp ha with ha | ha
        · exact h.known ha
        · rw [List.mem_singleton.mp ha, hg]
          exact h.invoked i (List.mem_of_getElem? hi)
      · intro m j hm hj hmem
        dsimp only at hm hj hmem
        rw [hlike.running] at hm
        rw [hlike.history] at hj
        obtain ⟨hne, hm⟩ := h.workers.nodup.mem_erase_iff.mp hm
        rcases List.mem_append.mp hmem with hmem | hmem
        · exact h.running m j hm hj hmem
        · obtain ⟨hgj, hidj⟩ := Prod.mk.inj (List.mem_singleton.mp hmem)
          exact hne (h.workers.index_eq hj hi (hgj.trans hg) hidj)
      · intro a ha
        dsimp only at ha ⊢
        rw [hlike.generation, hlike.lastRequest]
        exact h.past a ha
      · intro j hj
        dsimp only at hj ⊢
        rw [hlike.history] at hj
        exact h.invoked j hj
    -- There is no room for the reply, and another generation begins.
    · rw [hfail]
      have hne : c₁.fail.generation ≠ L.channel.generation := Nat.succ_ne_self _
      refine h.quiet hw₁.fail (writer_fail hq₁.past) rfl rfl ?_ (repliesIn_fail rfl) hsub (Nat.le_succ _)
        fun he => absurd he hne
      rw [settledIn, if_neg hne]
  · rw [if_neg hg]
    refine h.quiet hw₁ hq₁ rfl rfl ?_ ?_ hsub le_rfl fun _ => le_rfl
    · rw [settledIn, if_pos rfl]
      simp [c₁, hi, Ne.symm hg]
    · exact repliesIn_eq_nil rfl

/-! ### Runs -/

section

variable (F : Foundation) (token : String)

/-- `receive`, one move for each byte. -/
def receive : Data → Ledger → Ledger
  | [], L => L
  | byte :: data, L =>
      if byte = 10 then
        match { L.channel with buffer := [] }.receiveLine F token L.channel.buffer with
        | some c => receive data (L.note c)
        | none => L.note (ControlChannel.fail { L.channel with buffer := [] })
      else if L.channel.buffer.length < maximumFrame then
        receive data (L.note { L.channel with buffer := L.channel.buffer ++ [byte] })
      else L.note L.channel.fail

end

/-- What happens to the channel. -/
inductive Work where
  | receive (data : Data)
  | close
  | fail
  | wrote (n : Nat) (success : Bool)
  | writeTimeout (n : Nat)
  | complete (n : Nat) (result : Object)

/-- One event, if it can happen. -/
def next (F : Foundation) (token : String) (L : Ledger) : Work → Option Ledger
  | .receive data => some (L.receive F token data)
  | .close => some (L.note L.channel.close)
  | .fail => some (L.note L.channel.fail)
  | .wrote n success =>
      match L.channel.writes[n]? with
      | some (expected, line) =>
          some <| L.note <| { L.channel with writes := L.channel.writes.eraseIdx n }.wrote
            expected line success
      | none => none
  | .writeTimeout n =>
      match L.channel.writes[n]? with
      | some (expected, _) => some (L.note (L.channel.writeTimeout expected))
      | none => none
  | .complete n result =>
      if n ∈ L.channel.running then some (L.note (L.channel.complete F n result)) else none

def Step (F : Foundation) (token : String) (L : Ledger) (e : Work) (_ : Unit) (L' : Ledger) : Prop :=
  L.next F token e = some L'

/-- The ledger follows the channel. -/
theorem channel_receive (F : Foundation) (token : String) (data : Data) (L : Ledger) :
    (L.receive F token data).channel = L.channel.receive F token data := by
  induction data generalizing L with
  | nil => rfl
  | cons byte data ih =>
      rw [receive, ControlChannel.receive]
      by_cases hb : byte = 10
      · rw [if_pos hb, if_pos hb]
        cases ControlChannel.receiveLine F token L.channel.buffer { L.channel with buffer := [] } with
        | none => rfl
        | some c => exact ih _
      · rw [if_neg hb, if_neg hb]
        by_cases hlen : L.channel.buffer.length < maximumFrame
        · rw [if_pos hlen, if_pos hlen]
          exact ih _
        · rw [if_neg hlen, if_neg hlen]
          rfl

/-- **Receiving any bytes.** -/
theorem Inv.receive (F : Foundation) (token : String) (data : Data) (h : L.Inv) :
    (L.receive F token data).Inv := by
  induction data generalizing L with
  | nil => exact h
  | cons byte data ih =>
      -- the buffer does not matter to the handlers, nor to the queue
      have hlike : ∀ buffer, Like L.channel { L.channel with buffer } :=
        fun _ => ⟨rfl, rfl, rfl, rfl, rfl, rfl, rfl⟩
      have hq : ∀ buffer, ({ L.channel with buffer } : ControlChannel).Writer :=
        fun _ => ⟨h.writer.writing, h.writer.past, h.writer.one⟩
      rw [Ledger.receive]
      by_cases hb : byte = 10
      · rw [if_pos hb]
        split
        · rename_i c hline
          exact ih (h.line F (hlike []) (hq []) rfl hline)
        · exact h.fail (hlike []) (hq []).past rfl
      · rw [if_neg hb]
        by_cases hlen : L.channel.buffer.length < maximumFrame
        · rw [if_pos hlen]
          exact ih (h.like (hlike _) (hq _) (repliesIn_eq_nil rfl))
        · rw [if_neg hlen]
          exact h.fail (.refl _) h.writer.past rfl

/-- A write completes. -/
theorem Inv.wrote (h : L.Inv) {n expected : Nat} {line : Line}
    (hn : L.channel.writes[n]? = some (expected, line)) (success : Bool) :
    (L.note ({ L.channel with writes := L.channel.writes.eraseIdx n }.wrote
      expected line success)).Inv := by
  obtain ⟨hlt, hget⟩ := List.getElem?_eq_some_iff.mp hn
  have hperm := List.getElem_cons_eraseIdx_perm hlt
  rw [hget] at hperm
  have hcount : ∀ p : Nat × Line → Bool, L.channel.writes.countP p =
      (L.channel.writes.eraseIdx n).countP p + if p (expected, line) then 1 else 0 := by
    intro p
    rw [← hperm.countP_eq p, List.countP_cons]
  have hpast : ∀ w ∈ L.channel.writes.eraseIdx n, w.1 ≤ L.channel.generation :=
    fun w hw => h.writer.past w (List.mem_of_mem_eraseIdx hw)
  have hone := h.writer.one
  rw [writesNow, hcount] at hone
  rw [ControlChannel.wrote]
  dsimp only
  by_cases hg : L.channel.generation = expected
  · -- the write of this generation: the head of the queue has been written
    rw [if_pos hg]
    have hwriting : L.channel.writing = true := by
      cases hw : L.channel.writing with
      | true => rfl
      | false => simp [hw, hg] at hone
    have hnone : (L.channel.writes.eraseIdx n).countP (·.1 = L.channel.generation) = 0 := by
      simpa [hwriting, hg] using hone
    cases success with
    | true =>
        rw [if_pos rfl]
        set c₁ : ControlChannel := { L.channel with
          writes := L.channel.writes.eraseIdx n
          queue := L.channel.queue.tail
          queuedBytes := L.channel.queuedBytes - line.bytes.length
          writing := false }
        have hlines : c₁.drain.lines = L.channel.lines := by
          rw [lines_drain]
          simp [lines, c₁, hwriting]
        refine h.like ?_ (writer_drain (fun hw => by cases hw) hpast hnone) ?_
        · obtain ⟨hg', hs, ha, ho, hr, hrun, hh⟩ := like_drain c₁
          exact ⟨hg', hs, ha, ho, hr, hrun, hh⟩
        · exact repliesIn_eq_nil hlines
    | false =>
        rw [if_neg Bool.false_ne_true]
        have hlike : Like L.channel { L.channel with writes := L.channel.writes.eraseIdx n } :=
          ⟨rfl, rfl, rfl, rfl, rfl, rfl, rfl⟩
        exact h.fail hlike hpast rfl
  -- A write of an earlier generation tells nothing.
  · rw [if_neg hg]
    refine h.like ⟨rfl, rfl, rfl, rfl, rfl, rfl, rfl⟩ ⟨h.writer.writing, hpast, ?_⟩ ?_
    · change (L.channel.writes.eraseIdx n).countP _ = _
      simpa [Ne.symm hg] using hone
    · exact repliesIn_eq_nil rfl

/-- **One event** keeps the invariant. -/
theorem Inv.step (h : L.Inv) {F : Foundation} {token : String} {e : Work} {L' : Ledger}
    (hs : Step F token L e () L') : L'.Inv := by
  cases e with
  | receive data =>
      cases hs
      exact h.receive F token data
  | close =>
      cases hs
      exact h.close
  | fail =>
      cases hs
      exact h.fail (.refl _) h.writer.past rfl
  | wrote n success =>
      rw [Step, next] at hs
      split at hs
      · rename_i hn
        cases hs
        exact h.wrote hn success
      · cases hs
  | writeTimeout n =>
      rw [Step, next] at hs
      split at hs
      · cases hs
        rw [ControlChannel.writeTimeout]
        split
        · exact h.fail (.refl _) h.writer.past rfl
        · exact h.like (.refl _) h.writer (repliesIn_eq_nil rfl)
      · cases hs
  | complete n result =>
      obtain ⟨hn, ⟨⟩⟩ := Option.ite_none_right_eq_some.mp hs
      exact h.complete F hn result

/-- The events in turn, if each can happen. -/
def run (F : Foundation) (token : String) (L : Ledger) (events : List Work) : Option Ledger :=
  events.foldlM (next F token) L

theorem steps_of_run {F : Foundation} {token : String} {events : List Work} {L L' : Ledger}
    (h : L.run F token events = some L') : Steps (Step F token) L (events.map (·, ())) L' := by
  induction events generalizing L with
  | nil =>
      cases h
      exact .refl _
  | cons e events ih =>
      rw [run, List.foldlM_cons] at h
      obtain ⟨L₁, he, hrest⟩ := Option.bind_eq_some_iff.mp h
      exact .more he (ih hrest)

end Ledger

/-- **The worker budget**, in every state of every run: `outstanding` is the number of handlers that
run, of any generation, and at most 16; `active` are ids of handlers of this generation that run; the
ids of a generation increase.  The requests replied to are those that were refused or whose handler
completed while their generation lasted and the response could be queued, each once. -/
theorem worker_budget (F : Foundation) (token : String) {t : List (Ledger.Work × Unit)} {L : Ledger}
    (h : Steps (Ledger.Step F token) .initial t L) :
    L.channel.outstanding = L.channel.running.length ∧
    L.channel.outstanding ≤ 16 ∧
    L.channel.running.Nodup ∧
    (∀ n, n ∈ L.channel.running ↔ n < L.channel.history.invocations.length ∧
      n ∉ L.channel.history.results.map Prod.fst) ∧
    (∀ id ∈ L.channel.active, ∃ n i, n ∈ L.channel.running ∧
      L.channel.history.invocations[n]? = some i ∧ i.generation = L.channel.generation ∧
      i.id = id) ∧
    L.channel.history.invocations.Pairwise
      (fun i j => i.generation = j.generation → i.id < j.id) ∧
    L.accepted.Pairwise (fun a b => a.1 ≤ b.1 ∧ (a.1 = b.1 → a.2 < b.2)) ∧
    L.replies.Nodup ∧ L.replies ⊆ L.accepted ∧ L.replies = L.settled ∧
    ∀ f, (L.channel.enqueue F f).generation = L.channel.generation ↔ L.channel.Fits F f := by
  have hinv : L.Inv := h.invariant (I := Ledger.Inv) (fun h hs => h.step hs) Ledger.inv_initial
  have hw := hinv.workers
  refine ⟨hw.count, ?_, hw.nodup, hw.running, fun id hid => (hw.active id).mp hid, hw.ids,
    hinv.increasing, ?_, ?_, hinv.replies, fun f => ControlChannel.generation_enqueue F f _⟩
  · rw [hw.count]
    exact_mod_cast hw.few
  · rw [hinv.replies]
    exact hinv.nodup
  · rw [hinv.replies]
    exact hinv.known

namespace Sample

/-- A request is handled, and its handler completes. -/
def work : List Ledger.Work :=
  (hostTexts.table.map fun e => Ledger.Work.receive (e.2 ++ [10])) ++
    [Ledger.Work.complete 0 done, .wrote 0 true]

theorem replied :
    ((Ledger.initial.run setting.foundation token work).any fun L =>
      L.replies = [(0, 1)] ∧ L.channel.running = [] ∧
        L.channel.history.results = [(0, done)]) = true := by
  decide +kernel

end Sample

theorem worker_budget_replied :
    ∃ t L, Steps (Ledger.Step Sample.setting.foundation Sample.token) .initial t L ∧
      L.channel.history.results = [(0, Sample.done)] ∧ L.channel.outstanding = 0 ∧
      L.settled = [(0, 1)] := by
  obtain ⟨L, hL, hany⟩ := (Option.any_eq_true ..).mp Sample.replied
  obtain ⟨hreplies, hrunning, hresults⟩ := of_decide_eq_true hany
  have hrun := Ledger.steps_of_run hL
  obtain ⟨hcount, -, -, -, -, -, -, -, -, hsettled, -⟩ := worker_budget _ _ hrun
  refine ⟨_, L, hrun, hresults, ?_, hsettled ▸ hreplies⟩
  rw [hcount, hrunning]
  rfl

end Ashacky.Control
