import Ashacky.Hid.Invariant

/-!
# Hid — one final answer to each request

A request leaves the transport through `request` and comes back as at most one CBOR message: the
host's reply, the cancellation status `0x2d`, or the deadline status `0x2f`.  An INIT resync and
a device STOP or CLOSE end it without one.  The response carries no identifier, so an *observed*
call keeps the request that was live when the call was made; a CBOR message the call emits
answers that request.

* `step_effects`: a call starts a request, answers the live one and forgets it, or emits no CBOR
  message and starts nothing.
* `answers_ledger`: along a run whose identifiers are fresh, every CBOR message answers a request
  issued on its channel, and no request is answered twice.
* `one_final_answer` adds that a request that is no longer live stays so, and a late `complete`
  for it does nothing at all.
-/

namespace Ashacky.Hid
open Ashacky.Support

/-- The channels of the CBOR messages among the effects. -/
def finals (out : List Effect) : List UInt32 :=
  out.filterMap fun
    | .emit p => if commandOf p = Cmd.cbor then some (channelOf p) else none
    | _ => none

/-- The requests among the effects, with their channels. -/
def requests (out : List Effect) : List (String × UInt32) :=
  out.filterMap fun
    | .request id cid _ => some (id, cid)
    | _ => none

/-- A call as seen from outside: the request that was live, and the effects. -/
structure Call where
  busy : Option Busy
  effects : List Effect

/-- The step relation with the live request. -/
def HID.Observed (s : HID) (e : Event) (c : Call) (s' : HID) : Prop :=
  c.busy = s.busy ∧ s.Step e c.effects s'

/-- The requests issued along a trace. -/
def issued (t : List (Event × Call)) : List (String × UInt32) :=
  t.flatMap fun x => requests x.2.effects

/-- The answers along a trace: the request each CBOR message answers, and its channel. -/
def answers (t : List (Event × Call)) : List (Option String × UInt32) :=
  t.flatMap fun x => (finals x.2.effects).map fun c => (x.2.busy.map (·.requestId), c)

/-! ### The effects of one call -/

@[simp] theorem finals_append (a b : List Effect) : finals (a ++ b) = finals a ++ finals b := by
  simp [finals]

@[simp] theorem requests_append (a b : List Effect) :
    requests (a ++ b) = requests a ++ requests b := by
  simp [requests]

@[simp] theorem finals_cancel (id : String) (out : List Effect) :
    finals (.cancel id :: out) = finals out := rfl

@[simp] theorem requests_cancel (id : String) (out : List Effect) :
    requests (.cancel id :: out) = requests out := rfl

@[simp] theorem requests_emits (cid : UInt32) (cmd : UInt8) (payload : Data) :
    requests (emits cid cmd payload) = [] := by
  simp [requests, emits]

/-- A message is one CBOR message or none, by its command: the sequence numbers of its
continuations are below `0x80`. -/
theorem finals_emits {cid : UInt32} {cmd : UInt8} {payload : Data}
    (h : payload.length ≤ maxMessage) :
    finals (emits cid cmd payload) = if cmd = Cmd.cbor then [cid] else [] := by
  obtain ⟨hc, hcm, -, -⟩ := init_fields cid cmd h
  have hrest : ((List.range (continuations payload.length)).map
      (continuationPacket cid payload)).filterMap
        (fun p => if commandOf p = Cmd.cbor then some (channelOf p) else none) = [] := by
    refine List.filterMap_eq_nil_iff.mpr fun p hp => ?_
    obtain ⟨i, hi, rfl⟩ := List.mem_map.mp hp
    have hlt : i < 128 := by
      have := List.mem_range.mp hi
      have : maxMessage = 1024 := rfl
      unfold continuations at *
      omega
    have hne : ∀ j < 128, UInt8.ofNat j ≠ Cmd.cbor := by decide
    rw [(continuation_fields cid payload i).2.1, if_neg (hne i hlt)]
  simp only [finals, emits, reports, List.map_cons, List.filterMap_cons, hcm, hc,
    List.filterMap_map, Function.comp_def] at hrest ⊢
  rw [hrest]
  split <;> simp_all

@[simp] theorem finals_emits_byte (cid : UInt32) (cmd code : UInt8) :
    finals (emits cid cmd [code]) = if cmd = Cmd.cbor then [cid] else [] :=
  finals_emits (by simp [maxMessage])

/-- What a call can do to the live request. -/
inductive Live (busy : Option Busy) (out : List Effect) (busy' : Option Busy) : Prop where
  /-- It goes on, or ends without an answer. -/
  | quiet (hf : finals out = []) (hr : requests out = [])
      (hb : ∀ b', busy' = some b' →
        ∃ b, busy = some b ∧ b.requestId = b'.requestId ∧ b.cid = b'.cid)
  /-- It is answered on its channel. -/
  | answered {b : Busy} (hb : busy = some b) (hf : finals out = [b.cid]) (hr : requests out = [])
      (hb' : busy' = none)
  /-- A new one is issued. -/
  | started {b : Busy} (hb : busy = none) (hf : finals out = [])
      (hr : requests out = [(b.requestId, b.cid)]) (hb' : busy' = some b)

variable {s s' m : HID} {packet : Data} {r : Readings} {out : List Effect}

theorem Live.same (hf : finals out = []) (hr : requests out = []) (hb : s'.busy = s.busy) :
    Live s.busy out s'.busy :=
  .quiet hf hr fun b' e => ⟨b', hb ▸ e, rfl, rfl⟩

theorem Live.ended (hf : finals out = []) (hr : requests out = []) (hb : s'.busy = none) :
    Live s.busy out s'.busy :=
  .quiet hf hr fun b' e => by rw [hb] at e; cases e

theorem Live.of_dispatch {cid : UInt32} {part : Fragment} (hbusy : s.busy = none)
    (hmax : part.data.length ≤ maxMessage)
    (hd : s.dispatch cid part r = .ok (s', out)) : Live s.busy out s'.busy := by
  unfold HID.dispatch at hd
  split at hd
  · split at hd
    · rw [send_eq hmax] at hd
      cases hd
      exact .same (by rw [finals_emits hmax]; rfl) (requests_emits _ _ _) rfl
    split at hd
    · rw [HID.refuse_eq] at hd
      cases hd
      exact .same (by simp [Cmd.error, Cmd.cbor]) (requests_emits _ _ _) rfl
    · cases hd
      exact .started hbusy rfl rfl rfl
  · cases hd
    exact .same rfl rfl rfl

theorem Live.of_received (h : s.Invariant) (hlen : packet.length = 64)
    (hr : Received s packet r s' out) : Live s.busy out s'.busy := by
  have hnone : ∀ cid code, finals (emits cid Cmd.error [code]) = [] := by
    simp [Cmd.error, Cmd.cbor]
  have hinit : ∀ cid p a, finals (emits cid Cmd.init (HID.initResponse p a)) = [] := by
    intro cid p a
    rw [finals_emits (by simp [HID.initResponse, maxMessage])]
    rfl
  cases hr with
  | ignored => exact .same rfl rfl rfl
  | refused | turnedAway => exact .same (hnone _ _) (requests_emits _ _ _) rfl
  | idle => exact .same rfl rfl rfl
  | allocated | resynced | confirmed => exact .same (hinit _ _ _) (requests_emits _ _ _) rfl
  | aborted => exact .ended (hinit _ _ _) (by simp) rfl
  | cancelled _ hb hbc =>
      exact .answered hb (by simp [hbc]) (by simp) rfl
  | dropped => exact .same (hnone _ _) (requests_emits _ _ _) rfl
  | gathered hcid hbusy hpart hdisp =>
      obtain ⟨-, hmax, hle, -⟩ := HID.gathers_lengths h hlen hpart
      exact .of_dispatch (s := s.touch _) hbusy (hle.trans hmax) hdisp

theorem Live.of_timeoutBusy {now : Nat} (ht : s.timeoutBusy now = .ok (s', out)) :
    Live s.busy out s'.busy := by
  unfold HID.timeoutBusy at ht
  split at ht
  · rename_i b hb
    rw [send_byte, send_byte] at ht
    split at ht
    · cases ht
      exact .answered hb (by simp) (by simp) rfl
    split at ht
    · cases ht
      exact .quiet (by simp [Cmd.keepalive, Cmd.cbor]) (by simp)
        fun b' e => ⟨b, hb, by cases e; exact ⟨rfl, rfl⟩⟩
    · cases ht
      exact .same rfl rfl rfl
  · cases ht
    exact .same rfl rfl rfl

theorem timeoutFragment_effects {now : Nat} (ht : s.timeoutFragment now = .ok (s', out)) :
    finals out = [] ∧ requests out = [] ∧ s'.busy = s.busy := by
  unfold HID.timeoutFragment at ht
  split at ht
  · split at ht
    · rw [HID.refuse_eq] at ht
      cases ht
      exact ⟨by simp [Cmd.error, Cmd.cbor], by simp, rfl⟩
    · cases ht
      exact ⟨rfl, rfl, rfl⟩
  · cases ht
    exact ⟨rfl, rfl, rfl⟩

/-- **The effects of one call on the live request.** -/
theorem step_effects {e : Event} (h : s.Invariant) (hs : s.Step e out s') : Live s.busy out s'.busy := by
  cases e with
  | receive packet r =>
      by_cases hlen : packet.length = 64
      · exact .of_received h hlen (HID.receive_cases hs)
      · simp only [HID.Step, HID.call, HID.receive, ne_eq, hlen, not_false_eq_true, if_true] at hs
        cases hs
        exact .same rfl rfl rfl
  | complete id payload =>
      simp only [HID.Step, HID.call, HID.complete] at hs
      split at hs
      · rename_i b hb
        have hle : (if 1 ≤ payload.length ∧ payload.length ≤ maxMessage then payload
            else [0x7f]).length ≤ maxMessage := by
          split <;> simp_all [maxMessage]
        split at hs
        · rw [send_eq hle] at hs
          cases hs
          exact .answered hb (by rw [finals_emits hle]; rfl) (by simp) rfl
        · cases hs
          exact .same rfl rfl rfl
      · cases hs
        exact .same rfl rfl rfl
  | timeout now =>
      simp only [HID.Step, HID.call] at hs
      obtain ⟨s₁, out₁, out₂, h₁, h₂, rfl⟩ := HID.timeout_cases hs
      obtain ⟨hf, hr, hb⟩ := timeoutFragment_effects h₁
      cases Live.of_timeoutBusy h₂ with
      | quiet hf' hr' hb' => exact .quiet (by simp [hf, hf']) (by simp [hr, hr']) (hb ▸ hb')
      | answered hb' hf' hr' hn =>
          exact .answered (hb ▸ hb') (by simp [hf, hf']) (by simp [hr, hr']) hn
      | started hb' hf' hr' hn =>
          exact .started (hb ▸ hb') (by simp [hf, hf']) (by simp [hr, hr']) hn
  | abort =>
      simp only [HID.Step, HID.call, HID.abort, Bool.false_eq_true, if_false] at hs
      split at hs
      · cases hs
        exact .same rfl rfl rfl
      · cases hs
        exact .ended rfl rfl rfl

/-! ### Along a run -/

theorem issued_append (t u : List (Event × Call)) : issued (t ++ u) = issued t ++ issued u := by
  simp [issued]

/-- The books after a trace with fresh identifiers: the live request was issued and not yet
answered, every answer is to an issued request on its channel, and no request has two. -/
structure Ledger (s : HID) (t : List (Event × Call)) : Prop where
  live : ∀ b, s.busy = some b →
    (b.requestId, b.cid) ∈ issued t ∧ some b.requestId ∉ (answers t).map (·.1)
  own : ∀ a ∈ answers t, ∃ id, a.1 = some id ∧ (id, a.2) ∈ issued t
  once : ((answers t).map (·.1)).Nodup

variable {t u : List (Event × Call)}

/-- An identifier that was never issued was never answered. -/
theorem Ledger.not_answered (h : Ledger s t) {id : String} (hid : id ∉ (issued t).map (·.1)) :
    some id ∉ (answers t).map (·.1) := by
  intro ha
  obtain ⟨a, ha, e⟩ := List.mem_map.mp ha
  obtain ⟨id', he, hmem⟩ := h.own a ha
  rw [he] at e
  cases e
  exact hid (List.mem_map.mpr ⟨_, hmem, rfl⟩)

theorem Ledger.step {e : Event} {c : Call} (h : Ledger s t) (hs : s.Invariant)
    (hstep : s.Observed e c s') (hfresh : ((issued (t ++ [(e, c)])).map (·.1)).Nodup) :
    Ledger s' (t ++ [(e, c)]) := by
  obtain ⟨hbusy, hcall⟩ := hstep
  have hi : issued (t ++ [(e, c)]) = issued t ++ requests c.effects := by
    simp [issued]
  have ha : answers (t ++ [(e, c)]) =
      answers t ++ (finals c.effects).map fun d => (s.busy.map (·.requestId), d) := by
    simp [answers, hbusy]
  rw [hi] at hfresh
  cases step_effects hs hcall with
  | quiet hf hr hb =>
      rw [hf, List.map_nil, List.append_nil] at ha
      rw [hr, List.append_nil] at hi
      refine ⟨fun b' hb' => ?_, by rw [hi, ha]; exact h.own, by rw [ha]; exact h.once⟩
      obtain ⟨b, hsb, hid, hc⟩ := hb b' hb'
      rw [hi, ha, ← hid, ← hc]
      exact h.live b hsb
  | answered hsb hf hr hb' =>
      rw [hf, hsb] at ha
      rw [hr, List.append_nil] at hi
      obtain ⟨hiss, hnot⟩ := h.live _ hsb
      refine ⟨fun b' e' => ?_, fun a hmem => ?_, ?_⟩
      · rw [hb'] at e'
        cases e'
      · rw [ha] at hmem
        rw [hi]
        rcases List.mem_append.mp hmem with hmem | hmem
        · exact h.own a hmem
        · rw [List.mem_singleton.mp hmem]
          exact ⟨_, rfl, hiss⟩
      · rw [ha, List.map_append]
        exact h.once.append (List.nodup_singleton _) (by simpa using hnot)
  | @started b hsb hf hr hb' =>
      rw [hf, List.map_nil, List.append_nil] at ha
      rw [hr] at hi hfresh
      have hnew : b.requestId ∉ (issued t).map (·.1) := by
        rw [List.map_append] at hfresh
        exact fun hm => (List.nodup_append.mp hfresh).2.2 _ hm _ (by simp) rfl
      refine ⟨fun b' e' => ?_, fun a hmem => ?_, by rw [ha]; exact h.once⟩
      · rw [hb'] at e'
        cases e'
        rw [hi, ha]
        exact ⟨by simp, h.not_answered hnew⟩
      · rw [ha] at hmem
        obtain ⟨id, e', hid⟩ := h.own a hmem
        exact ⟨id, e', by rw [hi]; exact List.mem_append_left _ hid⟩

/-- **The ledger holds along every run with fresh identifiers.** -/
theorem answers_ledger (h : Steps HID.Observed HID.new t s)
    (hfresh : ((issued t).map (·.1)).Nodup) : Ledger s t := by
  have key : s.Invariant ∧ (((issued ([] ++ t)).map (·.1)).Nodup → Ledger s ([] ++ t)) := by
    refine Steps.invariant_trace (u := [])
      (I := fun s t => s.Invariant ∧ (((issued t).map (·.1)).Nodup → Ledger s t))
      (fun {s t e c s'} hI hstep => ?_) h
      ⟨.new, fun _ => ⟨nofun, by simp [answers], by simp [answers]⟩⟩
    refine ⟨HID.invariant_step hI.1 hstep.2, fun hn => ?_⟩
    have hn' : ((issued t).map (·.1)).Nodup := by
      rw [issued_append, List.map_append] at hn
      exact hn.of_append_left
    exact (hI.2 hn').step hI.1 hstep hn
  exact key.2 hfresh

/-- A request that is not live and is not issued again does not come back to life. -/
theorem not_live_of_not_issued {id : String} (h : Steps HID.Observed m u s) (hm : m.Invariant)
    (hid : id ∉ (issued u).map (·.1)) (hnot : m.busy.map (·.requestId) ≠ some id) :
    s.busy.map (·.requestId) ≠ some id := by
  induction h with
  | refl => exact hnot
  | @more m m₁ s e c u hstep _ ih =>
      simp only [issued, List.flatMap_cons, List.map_append, List.mem_append, not_or] at hid
      refine ih (HID.invariant_step hm hstep.2) hid.2 fun hlive => ?_
      obtain ⟨b', hb', rfl⟩ := Option.map_eq_some_iff.mp hlive
      cases step_effects hm hstep.2 with
      | quiet _ _ hb =>
          obtain ⟨b, hmb, he, -⟩ := hb b' hb'
          exact hnot (by rw [hmb, ← he]; rfl)
      | answered _ _ _ hn =>
          rw [hn] at hb'
          cases hb'
      | started _ _ hr hn =>
          rw [hn] at hb'
          cases hb'
          exact hid.1 (by rw [hr]; simp)

/-- A `complete` for a request that is not live does nothing. -/
theorem complete_not_live {id : String} (h : s.busy.map (·.requestId) ≠ some id)
    (payload : Data) : s.call (.complete id payload) = .ok (s, []) := by
  simp only [HID.call, HID.complete]
  split
  · rename_i b hb
    rw [if_neg fun e => h (by rw [hb, ← e]; rfl)]
  · rfl

/-- **One final answer, on its own channel.**  Along any run whose request identifiers are
fresh, split anywhere into `t` and `u`: every CBOR message answers the request that is live, was
issued on the channel it is sent on, and no request is answered twice; and a request issued in
`t` that is over when `t` is (however it ended) makes every later `complete` for it a call
without effect. -/
theorem one_final_answer (ht : Steps HID.Observed HID.new t m) (hu : Steps HID.Observed m u s)
    (hfresh : ((issued (t ++ u)).map (·.1)).Nodup) :
    (∀ a ∈ answers (t ++ u), ∃ id, a.1 = some id ∧ (id, a.2) ∈ issued (t ++ u)) ∧
      ((answers (t ++ u)).map (·.1)).Nodup ∧
      ∀ id ∈ (issued t).map (·.1), m.busy.map (·.requestId) ≠ some id →
        ∀ payload, s.call (.complete id payload) = .ok (s, []) := by
  have hl := answers_ledger (ht.append hu) hfresh
  refine ⟨hl.own, hl.once, fun id hid hover payload => ?_⟩
  have hm : m.Invariant :=
    Steps.invariant (fun hs hstep => HID.invariant_step hs hstep.2) ht .new
  rw [issued_append, List.map_append] at hfresh
  have hnew : id ∉ (issued u).map (·.1) :=
    fun hmem => (List.nodup_append.mp hfresh).2.2 id hid id hmem rfl
  exact complete_not_live (not_live_of_not_issued hu hm hnew hover) payload

/-- A cancelled request, a second one on the same channel, and the late reply to the first. -/
theorem one_final_answer_cancelled :
    ∃ t m u s, Steps HID.Observed HID.new t m ∧ Steps HID.Observed m u s ∧
      issued (t ++ u) = [("a", 7), ("b", 7)] ∧ answers (t ++ u) = [(some "a", 7)] ∧
      s.busy.map (·.requestId) = some "b" ∧ s.call (.complete "a" [0]) = .ok (s, []) := by
  have ht : Steps HID.Observed HID.new _ _ := .more
    (show HID.new.Observed (.receive (initPacket broadcast Cmd.init [1, 2, 3, 4, 5, 6, 7, 8])
        ⟨[7], "", 0, 0, 0⟩)
      ⟨none, emits broadcast Cmd.init [1, 2, 3, 4, 5, 6, 7, 8, 0, 0, 0, 7, 2, 0, 1, 0, 0x0c]⟩
      ⟨[7], none, none⟩ from ⟨rfl, by decide +kernel⟩) <|
    .more (show HID.Observed _ (.receive (initPacket 7 Cmd.cbor [4]) ⟨[], "a", 1, 1, 1⟩)
      ⟨none, [.request "a" 7 [4]]⟩ ⟨[7], none, some ⟨7, "a", 65001, 201⟩⟩
      from ⟨rfl, by decide +kernel⟩) <|
    .one (show HID.Observed _ (.receive (initPacket 7 Cmd.cancel []) ⟨[], "", 2, 2, 2⟩)
      ⟨some ⟨7, "a", 65001, 201⟩, .cancel "a" :: emits 7 Cmd.cbor [0x2d]⟩ ⟨[7], none, none⟩
      from ⟨rfl, by decide +kernel⟩)
  have hu : Steps HID.Observed ⟨[7], none, none⟩ _ _ :=
    .one (show HID.Observed _ (.receive (initPacket 7 Cmd.cbor [4]) ⟨[], "b", 3, 3, 3⟩)
      ⟨none, [.request "b" 7 [4]]⟩ ⟨[7], none, some ⟨7, "b", 65003, 203⟩⟩
      from ⟨rfl, by decide +kernel⟩)
  exact ⟨_, _, _, _, ht, hu, by decide +kernel, by decide +kernel, rfl,
    (one_final_answer ht hu (by decide +kernel)).2.2 "a" (by decide +kernel) (by decide) [0]⟩

end Ashacky.Hid
