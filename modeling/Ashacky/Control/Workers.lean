import Mathlib.Tactic.Tauto
import Ashacky.Control.Sessions

/-!
# Control — the handlers and the queue of the channel

* `ControlChannel.Workers`: `outstanding` counts the handlers that run, of any generation; `active`
  are the ids of those of this generation.
* `Workers.close`, `Workers.dispatch`, `Workers.finish`: a generation ends, a request is handed to a
  handler, a handler completes.
* `ControlChannel.Writer`: what is queued is being written, one line at a time.
* `enqueue_cases`: a frame is queued behind the others, or the channel fails.
-/

namespace Ashacky.Control
open Ashacky.Support

namespace ControlChannel

/-- The lines handed to the port, and those that are still to be. -/
def lines (c : ControlChannel) : List Line :=
  c.output ++ c.queue.drop (if c.writing then 1 else 0)

/-- The number of writes of this generation that are still to complete. -/
def writesNow (c : ControlChannel) : Nat := c.writes.countP (·.1 = c.generation)

/-- What holds of the handlers. -/
structure Workers (c : ControlChannel) : Prop where
  count : c.outstanding = c.running.length
  few : c.running.length ≤ 16
  nodup : c.running.Nodup
  running : ∀ n, n ∈ c.running ↔
    n < c.history.invocations.length ∧ n ∉ c.history.results.map Prod.fst
  results : ∀ e ∈ c.history.results, e.1 < c.history.invocations.length
  distinct : c.active.Nodup
  active : ∀ id, id ∈ c.active ↔ ∃ n i, n ∈ c.running ∧ c.history.invocations[n]? = some i ∧
    i.generation = c.generation ∧ i.id = id
  ids : c.history.invocations.Pairwise fun i j => i.generation = j.generation → i.id < j.id
  past : ∀ i ∈ c.history.invocations, i.generation ≤ c.generation ∧
    (i.generation = c.generation → i.id ≤ c.lastRequest ∧ c.session.isSome)

/-- What holds of the queue between events. -/
structure Writer (c : ControlChannel) : Prop where
  writing : c.writing = true ↔ c.queue ≠ []
  past : ∀ w ∈ c.writes, w.1 ≤ c.generation
  one : c.writesNow = if c.writing then 1 else 0

/-- The second channel has the same handlers. -/
structure Like (c c' : ControlChannel) : Prop where
  generation : c'.generation = c.generation
  session : c'.session = c.session
  active : c'.active = c.active
  outstanding : c'.outstanding = c.outstanding
  lastRequest : c'.lastRequest = c.lastRequest
  running : c'.running = c.running
  history : c'.history = c.history

theorem Like.refl (c : ControlChannel) : Like c c := ⟨rfl, rfl, rfl, rfl, rfl, rfl, rfl⟩

section

variable {c c' : ControlChannel}

theorem Workers.like (h : c.Workers) (hl : Like c c') : c'.Workers := by
  obtain ⟨hg, hs, ha, ho, hr, hrun, hh⟩ := hl
  refine ⟨?_, ?_, ?_, ?_, ?_, ?_, ?_, ?_, ?_⟩
  · rw [ho, hrun]
    exact h.count
  · rw [hrun]
    exact h.few
  · rw [hrun]
    exact h.nodup
  · rw [hrun, hh]
    exact h.running
  · rw [hh]
    exact h.results
  · rw [ha]
    exact h.distinct
  · rw [ha, hrun, hh, hg]
    exact h.active
  · rw [hh]
    exact h.ids
  · rw [hh, hg, hr, hs]
    exact h.past

/-- Two handlers of a generation with the same id are one. -/
theorem Workers.index_eq (h : c.Workers) {m n : Nat} {i j : Invocation}
    (hm : c.history.invocations[m]? = some i) (hn : c.history.invocations[n]? = some j)
    (hg : i.generation = j.generation) (hid : i.id = j.id) : m = n := by
  obtain ⟨hm', rfl⟩ := List.getElem?_eq_some_iff.mp hm
  obtain ⟨hn', rfl⟩ := List.getElem?_eq_some_iff.mp hn
  rcases Nat.lt_trichotomy m n with hlt | heq | hgt
  · exact absurd hid (List.pairwise_iff_getElem.mp h.ids m n hm' hn' hlt hg).ne
  · exact heq
  · exact absurd hid.symm (List.pairwise_iff_getElem.mp h.ids n m hn' hm' hgt hg.symm).ne

/-! ### Ending a generation -/

/-- The handlers run on. -/
theorem Workers.close (h : c.Workers) : c.close.Workers where
  count := h.count
  few := h.few
  nodup := h.nodup
  running := h.running
  results := h.results
  distinct := List.nodup_nil
  active := by
    intro id
    constructor
    · intro hid
      cases hid
    · rintro ⟨n, i, -, hi, hg, -⟩
      have := (h.past i (List.mem_of_getElem? hi)).1
      rw [hg] at this
      exact absurd this (Nat.not_succ_le_self _)
  ids := h.ids
  past := by
    intro i hi
    have hle := (h.past i hi).1
    refine ⟨hle.trans (Nat.le_succ _), fun hg => ?_⟩
    rw [hg] at hle
    exact absurd hle (Nat.not_succ_le_self _)

theorem Workers.fail (h : c.Workers) : c.fail.Workers :=
  h.close.like ⟨rfl, rfl, rfl, rfl, rfl, rfl, rfl⟩

/-- Writes of a generation that has ended are not waited for. -/
theorem writer_close (hp : ∀ w ∈ c.writes, w.1 ≤ c.generation) : c.close.Writer where
  writing := by simp [ControlChannel.close]
  past w hw := (hp w hw).trans (Nat.le_succ _)
  one := by
    refine List.countP_eq_zero.mpr ?_
    intro w hw heq
    have hle := hp w hw
    rw [of_decide_eq_true heq] at hle
    exact absurd hle (Nat.not_succ_le_self _)

theorem writer_fail (hp : ∀ w ∈ c.writes, w.1 ≤ c.generation) : c.fail.Writer :=
  ⟨(writer_close hp).writing, (writer_close hp).past, (writer_close hp).one⟩

/-! ### The queue -/

theorem like_drain (c : ControlChannel) : Like c c.drain := by
  rw [drain]
  split <;> exact ⟨rfl, rfl, rfl, rfl, rfl, rfl, rfl⟩

theorem lines_drain (c : ControlChannel) : c.drain.lines = c.lines := by
  rw [drain]
  split
  · rename_i line _ hw hq
    simp [lines, hw, hq]
  · rfl

/-- After a line was added or taken, draining puts the queue right. -/
theorem writer_drain (hq : c.writing = true → c.queue ≠ []) (hp : ∀ w ∈ c.writes, w.1 ≤ c.generation)
    (ho : c.writesNow = if c.writing then 1 else 0) : c.drain.Writer := by
  rw [drain]
  split
  · rename_i line _ hw hqueue
    refine ⟨by simp [hqueue], ?_, ?_⟩
    · intro w hw'
      rcases List.mem_append.mp hw' with hw' | hw'
      · exact hp w hw'
      · rw [List.mem_singleton.mp hw']
    · rw [writesNow, hw] at ho
      simp only [writesNow, List.countP_append, List.countP_singleton]
      simpa using ho
  · rename_i hcases
    refine ⟨⟨hq, fun hne => ?_⟩, hp, ho⟩
    cases hw : c.writing with
    | true => rfl
    | false =>
        cases hqueue : c.queue with
        | nil => exact absurd hqueue hne
        | cons line rest => exact absurd hqueue (hcases line rest hw)

/-- A frame is queued, or the channel fails. -/
theorem enqueue_cases (F : Foundation) (f : HostFrame) (h : c.Writer) :
    (∃ bytes, (c.enqueue F f).lines = c.lines ++ [⟨f, bytes⟩] ∧ Like c (c.enqueue F f) ∧
      (c.enqueue F f).Writer) ∨ c.enqueue F f = c.fail := by
  rw [enqueue]
  split
  · rename_i bytes _
    split
    · split
      · refine .inl ⟨bytes ++ [10], ?_, ?_, ?_⟩
        · rw [lines_drain]
          simp only [lines]
          cases hw : c.writing with
          | false => simp
          | true =>
              have hlen : 1 ≤ c.queue.length := List.length_pos_iff.mpr (h.writing.mp hw)
              simp [List.drop_append_of_le_length hlen]
        · exact ⟨(like_drain _).generation, (like_drain _).session, (like_drain _).active,
            (like_drain _).outstanding, (like_drain _).lastRequest, (like_drain _).running,
            (like_drain _).history⟩
        · exact writer_drain (by simp) h.past h.one
      · exact .inr rfl
    · exact .inr rfl
  · exact .inr rfl

/-- The frame can be queued. -/
def Fits (F : Foundation) (f : HostFrame) (c : ControlChannel) : Prop :=
  ∃ bytes, F.data f.entries = some bytes ∧ bytes.length ≤ maximumFrame ∧
    c.queuedBytes + (bytes.length + 1) ≤ maximumQueue

/-- `enqueue` fails, and ends the generation, when the frame cannot be queued. -/
theorem generation_enqueue (F : Foundation) (f : HostFrame) (c : ControlChannel) :
    (c.enqueue F f).generation = c.generation ↔ c.Fits F f := by
  have hfail : c.fail.generation ≠ c.generation := Nat.succ_ne_self _
  rw [enqueue]
  cases hdata : F.data f.entries with
  | none =>
      refine ⟨fun h => absurd h hfail, ?_⟩
      rintro ⟨_, h, -⟩
      rw [hdata] at h
      cases h
  | some bytes =>
      dsimp only
      by_cases hlen : bytes.length ≤ maximumFrame
      · rw [if_pos hlen]
        by_cases hroom : c.queuedBytes + (bytes.length + 1) ≤ maximumQueue
        · rw [if_pos hroom]
          exact ⟨fun _ => ⟨bytes, hdata, hlen, hroom⟩, fun _ => (like_drain _).generation⟩
        · rw [if_neg hroom]
          refine ⟨fun h => absurd h hfail, ?_⟩
          rintro ⟨_, h, -, hr⟩
          rw [hdata] at h
          cases h
          exact absurd hr hroom
      · rw [if_neg hlen]
        refine ⟨fun h => absurd h hfail, ?_⟩
        rintro ⟨_, h, hl, -⟩
        rw [hdata] at h
        cases h
        exact absurd hl hlen

theorem reply_eq (F : Foundation) {session : String} (hs : c.session = some session) (id : Int)
    (payload : Object) (origin : Option Nat) :
    c.reply F id payload origin = c.enqueue F (.response session id payload origin) := by
  rw [reply, hs]

/-! ### Handlers -/

/-- A request is handed to a handler. -/
theorem Workers.dispatch (h : c.Workers) {session : String} (hs : c.session = some session)
    {id : Int} (hid : id > c.lastRequest) (hfew : c.outstanding < 16) (service : Service)
    (payload : Object) :
    ({ c with
      lastRequest := id
      active := if id ∈ c.active then c.active else c.active ++ [id]
      outstanding := c.outstanding + 1
      running := c.running ++ [c.history.invocations.length]
      history := { c.history with invocations := c.history.invocations ++
        [⟨c.generation, session, id, service, payload⟩] } } : ControlChannel).Workers := by
  have hnew : c.history.invocations.length ∉ c.running := by
    intro hn
    exact absurd ((h.running _).mp hn).1 (lt_irrefl _)
  -- an index is that of an earlier handler, or the new one
  have hget : ∀ {n i}, (c.history.invocations ++
      [⟨c.generation, session, id, service, payload⟩])[n]? = some i ↔
      c.history.invocations[n]? = some i ∨
        (n = c.history.invocations.length ∧ ⟨c.generation, session, id, service, payload⟩ = i) := by
    intro n i
    rcases Nat.lt_trichotomy n c.history.invocations.length with hlt | rfl | hgt
    · rw [List.getElem?_append_left hlt]
      simp [hlt.ne]
    · simp
    · rw [List.getElem?_append_right hgt.le, List.getElem?_eq_none hgt.le]
      simp [hgt.ne', Nat.sub_ne_zero_of_lt hgt]
  have hfresh : id ∉ c.active := by
    intro hmem
    obtain ⟨n, i, -, hi, hg, rfl⟩ := (h.active id).mp hmem
    exact absurd ((h.past i (List.mem_of_getElem? hi)).2 hg).1 (not_le.mpr hid)
  refine ⟨?_, ?_, ?_, ?_, ?_, ?_, ?_, ?_, ?_⟩
  · simp [h.count]
  · have := h.count
    simp only [List.length_append, List.length_singleton]
    omega
  · exact List.nodup_append.mpr ⟨h.nodup, List.nodup_singleton _, by
      intro a ha b hb
      rw [List.mem_singleton.mp hb]
      rintro rfl
      exact hnew ha⟩
  · intro n
    simp only [List.mem_append, List.mem_singleton, h.running, List.length_append,
      List.length_singleton]
    constructor
    · rintro (⟨hlt, hr⟩ | rfl)
      · exact ⟨hlt.trans (Nat.lt_succ_self _), hr⟩
      · refine ⟨Nat.lt_succ_self _, fun hr => ?_⟩
        obtain ⟨e, he, heq⟩ := List.mem_map.mp hr
        exact absurd heq (h.results e he).ne
    · rintro ⟨hlt, hr⟩
      rcases Nat.lt_succ_iff_lt_or_eq.mp hlt with hlt | heq
      · exact .inl ⟨hlt, hr⟩
      · exact .inr heq
  · intro e he
    simp only [List.length_append, List.length_singleton]
    exact (h.results e he).trans (Nat.lt_succ_self _)
  · simp only [if_neg hfresh]
    exact List.nodup_append.mpr ⟨h.distinct, List.nodup_singleton _, by
      intro a ha b hb
      rw [List.mem_singleton.mp hb]
      rintro rfl
      exact hfresh ha⟩
  · intro id'
    simp only [if_neg hfresh, List.mem_append, List.mem_singleton, h.active, hget]
    constructor
    · rintro (⟨n, i, hn, hi, hrest⟩ | rfl)
      · exact ⟨n, i, .inl hn, .inl hi, hrest⟩
      · exact ⟨_, _, .inr rfl, .inr ⟨rfl, rfl⟩, rfl, rfl⟩
    · rintro ⟨n, i, hn, hi | ⟨-, rfl⟩, hg, hid'⟩
      · refine .inl ⟨n, i, ?_, hi, hg, hid'⟩
        rcases hn with hn | rfl
        · exact hn
        · rw [List.getElem?_eq_none le_rfl] at hi
          cases hi
      · exact .inr hid'.symm
  · refine List.pairwise_append.mpr ⟨h.ids, List.pairwise_singleton _ _, ?_⟩
    intro i hi j hj hg
    rw [List.mem_singleton.mp hj] at hg ⊢
    exact ((h.past i hi).2 hg).1.trans_lt hid
  · intro i hi
    rcases List.mem_append.mp hi with hi | hi
    · obtain ⟨hle, hpast⟩ := h.past i hi
      exact ⟨hle, fun hg => ⟨(hpast hg).1.trans hid.le, (hpast hg).2⟩⟩
    · rw [List.mem_singleton.mp hi]
      refine ⟨le_rfl, fun _ => ⟨le_rfl, ?_⟩⟩
      change c.session.isSome = true
      rw [hs]
      rfl

/-- A handler completes. -/
theorem Workers.finish (h : c.Workers) {n : Nat} (hn : n ∈ c.running) {i : Invocation}
    (hi : c.history.invocations[n]? = some i) (result : Object) :
    ({ c with
      outstanding := c.outstanding - 1
      running := c.running.erase n
      active := if c.generation = i.generation then c.active.erase i.id else c.active
      history := { c.history with results := c.history.results ++ [(n, result)] } } :
      ControlChannel).Workers := by
  have hlen : (c.running.erase n).length = c.running.length - 1 := List.length_erase_of_mem hn
  have hpos : 0 < c.running.length := List.length_pos_of_mem hn
  refine ⟨?_, ?_, h.nodup.erase n, ?_, ?_, ?_, ?_, h.ids, h.past⟩
  · have := h.count
    simp only [hlen]
    omega
  · have := h.few
    simp only [hlen]
    omega
  · intro m
    simp only [h.nodup.mem_erase_iff, h.running, List.map_append, List.mem_append, List.map_cons,
      List.map_nil, List.mem_singleton, not_or]
    tauto
  · intro e he
    rcases List.mem_append.mp he with he | he
    · exact h.results e he
    · rw [List.mem_singleton.mp he]
      exact ((h.running n).mp hn).1
  · dsimp only
    split
    · exact h.distinct.erase _
    · exact h.distinct
  · intro id
    dsimp only
    -- Only a handler of this generation frees an id, and no other handler has that id.
    by_cases hg : c.generation = i.generation
    · rw [if_pos hg, h.distinct.mem_erase_iff, h.active]
      constructor
      · rintro ⟨hne, m, j, hm, hj, hgj, rfl⟩
        refine ⟨m, j, h.nodup.mem_erase_iff.mpr ⟨?_, hm⟩, hj, hgj, rfl⟩
        rintro rfl
        rw [hi] at hj
        cases hj
        exact hne rfl
      · rintro ⟨m, j, hm, hj, hgj, rfl⟩
        obtain ⟨hne, hm⟩ := h.nodup.mem_erase_iff.mp hm
        exact ⟨fun heq => hne (h.index_eq hj hi (hgj.trans hg) heq), m, j, hm, hj, hgj, rfl⟩
    · rw [if_neg hg, h.active]
      constructor
      · rintro ⟨m, j, hm, hj, hgj, rfl⟩
        refine ⟨m, j, h.nodup.mem_erase_iff.mpr ⟨?_, hm⟩, hj, hgj, rfl⟩
        rintro rfl
        rw [hi] at hj
        cases hj
        exact hg hgj.symm
      · rintro ⟨m, j, hm, hj, hrest⟩
        exact ⟨m, j, (h.nodup.mem_erase_iff.mp hm).2, hj, hrest⟩

/-- In its generation the id of a handler that runs is active. -/
theorem Workers.complete_eq (h : c.Workers) (F : Foundation) {n : Nat} (hn : n ∈ c.running)
    {i : Invocation} (hi : c.history.invocations[n]? = some i) (result : Object) :
    c.complete F n result =
      let c₁ := { c with
        outstanding := c.outstanding - 1
        running := c.running.erase n
        active := if c.generation = i.generation then c.active.erase i.id else c.active
        history := { c.history with results := c.history.results ++ [(n, result)] } }
      if c.generation = i.generation then c₁.reply F i.id result (some n) else c₁ := by
  rw [complete, hi]
  dsimp only
  by_cases hg : c.generation = i.generation
  · have hactive : i.id ∈ c.active := (h.active i.id).mpr ⟨n, i, hn, hi, hg.symm, rfl⟩
    rw [if_pos ⟨hg, hactive⟩, if_pos hg, if_pos hg]
  · rw [if_neg (fun hc => hg hc.1), if_neg hg, if_neg hg]

end

end ControlChannel

end Ashacky.Control
