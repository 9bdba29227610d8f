import Ashacky.Hid.Invariant

/-!
# Hid — a message is reassembled exactly

The reports of one message arrive in order, with reports of other channels between them.  While
the message is incomplete the transport is `Collecting` it: the fragment holds the first
`57 + 59 * i` bytes after continuation `i - 1`.

* `collecting_foreign`: no event of another channel disturbs a collected message.  Allocation
  evicts only unprotected channels, other channels are refused while the fragment is live, and
  nothing is emitted on this channel.
* `collecting_own`: the next report of this channel moves the collection one step on, and the
  last one answers the message.
* `reassembly`: so a message of at most 1024 bytes is answered exactly once, with exactly the
  bytes sent.
-/

namespace Ashacky.Hid
open Ashacky.Support

/-! ### Which effects are on a channel -/

/-- A report emitted on another channel than `cid`. -/
def Effect.isForeign (cid : UInt32) : Effect → Bool
  | .emit packet => channelOf packet != cid
  | _ => false

theorem channelOf_reports {cid : UInt32} {cmd : UInt8} {payload p : Data}
    (h : p ∈ reports cid cmd payload) : channelOf p = cid := by
  rcases List.mem_cons.mp h with rfl | h
  · rw [initPacket, padRight, List.append_assoc, List.append_assoc, channelOf_packChannel]
  · obtain ⟨i, -, rfl⟩ := List.mem_map.mp h
    exact (continuation_fields cid payload i).1

theorem isForeign_emits {c cid : UInt32} (hne : c ≠ cid) {cmd : UInt8} {payload : Data} :
    ∀ e ∈ emits c cmd payload, e.isForeign cid = true := by
  intro e he
  obtain ⟨p, hp, rfl⟩ := List.mem_map.mp he
  simp [Effect.isForeign, channelOf_reports hp, hne]

theorem filter_emits_own (cid : UInt32) (cmd : UInt8) (payload : Data) :
    (emits cid cmd payload).filter (fun e => !e.isForeign cid) = emits cid cmd payload := by
  refine List.filter_eq_self.mpr fun e he => ?_
  obtain ⟨p, hp, rfl⟩ := List.mem_map.mp he
  simp [Effect.isForeign, channelOf_reports hp]

/-! ### Interleavings -/

/-- The events `es` bring the reports `ps` of the channel `cid` in order, with reports of other
channels, and timer calls before `deadline`, between them. -/
inductive Interleaved (cid : UInt32) (deadline : Nat) : List Data → List Event → Prop where
  | done : Interleaved cid deadline [] []
  | own {p : Data} {ps : List Data} {es : List Event} (r : Readings)
      (h : Interleaved cid deadline ps es) : Interleaved cid deadline (p :: ps) (.receive p r :: es)
  | foreign {p q : Data} {ps : List Data} {es : List Event} (r : Readings)
      (hq : channelOf q ≠ cid) (h : Interleaved cid deadline (p :: ps) es) :
      Interleaved cid deadline (p :: ps) (.receive q r :: es)
  | tick {p : Data} {ps : List Data} {es : List Event} {now : Nat} (hnow : now < deadline)
      (h : Interleaved cid deadline (p :: ps) es) :
      Interleaved cid deadline (p :: ps) (.timeout now :: es)

/-- What a complete message is answered with. -/
def answer (cid : UInt32) (cmd : UInt8) (payload : Data) (requestId : String) : List Effect :=
  if cmd = Cmd.ping then emits cid Cmd.ping payload
  else if payload = [] then emits cid Cmd.error [0x03]
  else [.request requestId cid payload]

theorem filter_answer_own (cid : UInt32) (cmd : UInt8) (payload : Data) (requestId : String) :
    (answer cid cmd payload requestId).filter (fun e => !e.isForeign cid) =
      answer cid cmd payload requestId := by
  unfold answer
  split
  · exact filter_emits_own cid _ _
  split
  · exact filter_emits_own cid _ _
  · rfl

/-! ### Collecting a message -/

/-- The fragment after `i` continuations. -/
def collected (cid : UInt32) (cmd : UInt8) (payload : Data) (deadline i : Nat) : Fragment :=
  ⟨cid, cmd, payload.length, payload.take (57 + 59 * i), i, deadline⟩

/-- The transport holds the first part of the message and nothing else is under way. -/
structure Collecting (cid : UInt32) (cmd : UInt8) (payload : Data) (deadline i : Nat) (s : HID) :
    Prop where
  mem : cid ∈ s.channels
  idle : s.busy = none
  fragment : s.fragment = some (collected cid cmd payload deadline i)

variable {cid : UInt32} {cmd : UInt8} {payload : Data} {deadline i : Nat} {s s' : HID}
  {out : List Effect}

/-- A report of another channel leaves the collection alone and emits nothing on `cid`. -/
theorem Collecting.received (h : Collecting cid cmd payload deadline i s) {q : Data}
    {r : Readings} (hq : channelOf q ≠ cid) (hr : Received s q r s' out) :
    Collecting cid cmd payload deadline i s' ∧ ∀ e ∈ out, e.isForeign cid = true := by
  have hown : ∀ f, s.fragment = some f → f.cid = cid := by
    rintro f hf
    rw [h.fragment] at hf
    cases hf
    rfl
  cases hr with
  | ignored => exact ⟨h, by simp⟩
  | refused => exact ⟨h, isForeign_emits hq⟩
  | allocated =>
      have hp : s.isProtected cid = true := by simp [HID.isProtected, h.fragment, collected]
      exact ⟨⟨HID.protected_mem_allocate _ h.mem hp, h.idle, h.fragment⟩, isForeign_emits hq⟩
  | resynced _ hfrag =>
      obtain ⟨f, hf, hfc⟩ := (HID.any_cid_iff _ _ _).mp hfrag
      exact absurd (hfc.symm.trans (hown f hf)) hq
  | confirmed => exact ⟨h, isForeign_emits hq⟩
  | aborted _ hb | cancelled _ hb => rw [h.idle] at hb; cases hb
  | turnedAway _ hc =>
      exact ⟨⟨(HID.mem_touch hc).mpr h.mem, h.idle, h.fragment⟩, isForeign_emits hq⟩
  | idle hc => exact ⟨⟨(HID.mem_touch hc).mpr h.mem, h.idle, h.fragment⟩, by simp⟩
  | dropped _ _ hf hfc => exact absurd (hfc.symm.trans (hown _ hf)) hq
  | gathered _ _ hpart =>
      cases hpart with
      | start hf => rw [h.fragment] at hf; cases hf
      | next hf hfc => exact absurd (hfc.symm.trans (hown _ hf)) hq

/-- A call on a report of another channel returns, unless it is still drawing a number. -/
theorem Collecting.receive_error (h : Collecting cid cmd payload deadline i s) {q : Data}
    {r : Readings} (hq : channelOf q ≠ cid) {f : Fault} (he : s.receive q r = .error f) :
    f = .drawing := by
  rcases HID.receive_error he with hf | ⟨part, hpart, -⟩
  · exact hf
  · cases hpart with
    | start hf => rw [h.fragment] at hf; cases hf
    | next hf hfc =>
        rw [h.fragment] at hf
        cases hf
        exact absurd hfc.symm hq

/-- A timer call before the deadline does nothing. -/
theorem Collecting.timeout (h : Collecting cid cmd payload deadline i s) {now : Nat}
    (hnow : now < deadline) : s.call (.timeout now) = .ok (s, []) := by
  have hlt : ¬ now ≥ (collected cid cmd payload deadline i).deadline := by
    simpa [collected] using hnow
  simp [HID.call, HID.timeout, HID.timeoutFragment, HID.timeoutBusy, h.fragment, h.idle, hlt,
    bind, Except.bind, pure, Except.pure]

/-! ### The reports of the message itself -/

/-- Adding the bytes of continuation `i` to those before them. -/
theorem take_continuation (payload : Data) (i : Nat) :
    payload.take (57 + 59 * i) ++ (payload.drop (57 + 59 * i)).take 59 =
      payload.take (57 + 59 * (i + 1)) := by
  rw [← List.take_add]
  congr 1

/-- There is a continuation `i` exactly when the message is longer than what precedes it. -/
theorem lt_continuations {n i : Nat} : i < continuations n ↔ 57 + 59 * i < n := by
  unfold continuations
  omega

/-- The sequence numbers of a message are no commands. -/
theorem sequence_not_command :
    ∀ i < 128, UInt8.ofNat i ≠ Cmd.init ∧ UInt8.ofNat i ≠ Cmd.cancel ∧
      UInt8.ofNat i &&& 0x80 = 0 ∧ (UInt8.ofNat i).toNat = i := by
  decide

/-- The first report starts the collection. -/
theorem receive_first (hmem : cid ∈ s.channels) (h0 : cid ≠ 0) (hb : cid ≠ broadcast)
    (hbusy : s.busy = none) (hfrag : s.fragment = none) (hlen : payload.length ≤ maxMessage)
    (hcmd : cmd = Cmd.ping ∨ cmd = Cmd.cbor) (r : Readings) :
    s.receive (initPacket cid cmd payload) r =
      (s.touch cid).dispatch cid (collected cid cmd payload (r.started + 3000) 0) r := by
  obtain ⟨hc, hcm, hl, hd⟩ := init_fields cid cmd hlen
  have hneq : cmd ≠ Cmd.init ∧ cmd ≠ Cmd.cancel ∧ cmd &&& 0x80 ≠ 0 ∧
      ¬ (cmd ≠ Cmd.ping ∧ cmd ≠ Cmd.cbor) := by
    rcases hcmd with rfl | rfl <;> decide
  have htouch : (s.touch cid).busy = none ∧ (s.touch cid).fragment = none := ⟨hbusy, hfrag⟩
  simp only [HID.receive, HID.receiveCommand, length_initPacket, hc, hcm, hl, hd, h0, hb, hmem,
    hneq, htouch, collected, ne_eq, not_true_eq_false, not_false_eq_true, if_true, if_false,
    false_or, Option.isSome_none, Bool.false_eq_true]
  rw [if_neg (by omega)]

/-- Continuation `i` extends it. -/
theorem Collecting.receive_next (h : Collecting cid cmd payload deadline i s) (h0 : cid ≠ 0)
    (hb : cid ≠ broadcast) (hlen : payload.length ≤ maxMessage)
    (hi : i < continuations payload.length) (r : Readings) :
    s.receive (continuationPacket cid payload i) r =
      (s.touch cid).dispatch cid (collected cid cmd payload deadline (i + 1)) r := by
  obtain ⟨hc, hcm, hd⟩ := continuation_fields cid payload i
  have hmore := lt_continuations.mp hi
  have hi128 : i < 128 := by
    have : maxMessage = 1024 := rfl
    omega
  obtain ⟨hninit, hncancel, hnhigh, hseq⟩ := sequence_not_command i hi128
  have htouch : (s.touch cid).busy = none ∧
      (s.touch cid).fragment = some (collected cid cmd payload deadline i) := ⟨h.idle, h.fragment⟩
  have hcount : (collected cid cmd payload deadline i).data.length = 57 + 59 * i := by
    simp only [collected, List.length_take]
    omega
  simp only [HID.receive, HID.receiveContinuation, length_continuationPacket, hc, hcm, h0, hb,
    h.mem, hninit, hncancel, hnhigh, htouch, ne_eq, not_true_eq_false, if_false, false_or,
    Option.isSome_none, Bool.false_eq_true, hcount]
  simp only [collected, hseq, not_true_eq_false, if_false, hd, take_continuation]

/-- **The next report of the message.**  It continues the collection, or, when it is the last
one, answers the message. -/
theorem dispatch_collected (cmd : UInt8) (deadline i : Nat) (hmem : cid ∈ s.channels)
    (hbusy : s.busy = none) (hlen : payload.length ≤ maxMessage) (r : Readings) :
    (57 + 59 * i < payload.length ∧ ∃ s',
      s.dispatch cid (collected cid cmd payload deadline i) r = .ok (s', []) ∧
        Collecting cid cmd payload deadline i s') ∨
    (payload.length ≤ 57 + 59 * i ∧ ∃ s',
      s.dispatch cid (collected cid cmd payload deadline i) r =
        .ok (s', answer cid cmd payload r.uuid)) := by
  rcases Nat.lt_or_ge (57 + 59 * i) payload.length with hlt | hge
  · refine .inl ⟨hlt, { s with fragment := some _ }, ?_, ⟨hmem, hbusy, rfl⟩⟩
    have hne : (collected cid cmd payload deadline i).data.length ≠
        (collected cid cmd payload deadline i).length := by
      simp only [collected, List.length_take]
      omega
    rw [HID.dispatch, if_neg hne]
  · refine .inr ⟨hge, ?_⟩
    have hall : payload.take (57 + 59 * i) = payload := List.take_of_length_le hge
    unfold HID.dispatch answer
    simp only [collected, hall, if_true, HID.refuse_eq, send_eq hlen, Except.map]
    split
    · exact ⟨_, rfl⟩
    split <;> exact ⟨_, rfl⟩

/-! ### The whole message -/

theorem filter_foreign (h : ∀ e ∈ out, e.isForeign cid = true) :
    out.filter (fun e => !e.isForeign cid) = [] :=
  List.filter_eq_nil_iff.mpr fun e he => by simp [h e he]

/-- From a collection to the answer, over the rest of an interleaving. -/
theorem Collecting.run {ps : List Data} {es : List Event}
    (hes : Interleaved cid deadline ps es) (h0 : cid ≠ 0) (hb : cid ≠ broadcast)
    (hlen : payload.length ≤ maxMessage) :
    ∀ {i : Nat} {s : HID}, Collecting cid cmd payload deadline i s →
      i < continuations payload.length →
      ps = ((List.range (continuations payload.length)).drop i).map
        (continuationPacket cid payload) →
      s.run es ≠ .error .drawing →
      ∃ s' out id, s.run es = .ok (s', out) ∧
        out.filter (fun e => !e.isForeign cid) = answer cid cmd payload id := by
  -- Own packets extend the collection by one; foreign ones and ticks leave it.
  induction hes with
  | done =>
      intro i s _ hi hps
      have := congrArg List.length hps
      simp only [List.length_nil, List.length_map, List.length_drop, List.length_range] at this
      omega
  | own r hes ih =>
      intro i s h hi hps hdraw
      rw [List.drop_eq_getElem_cons (by simpa using hi), List.map_cons, List.getElem_range] at hps
      obtain ⟨rfl, rfl⟩ := List.cons.inj hps
      have hcall : s.call (.receive (continuationPacket cid payload i) r) = _ :=
        h.receive_next h0 hb hlen hi r
      have hmem : cid ∈ (s.touch cid).channels := (HID.mem_touch h.mem).mpr h.mem
      rcases dispatch_collected cmd deadline (i + 1) hmem
          (show (s.touch cid).busy = none from h.idle) hlen r with
        ⟨hmore, s₁, hd, h₁⟩ | ⟨hdone, s₁, hd⟩
      · rw [HID.run_cons_ok (hcall.trans hd)] at hdraw ⊢
        obtain ⟨s', out, id, hrun, hout⟩ := ih h₁ (lt_continuations.mpr hmore) rfl
          (fun e => hdraw (by rw [e]; rfl))
        exact ⟨s', out, id, by rw [hrun]; rfl, hout⟩
      · -- the last report: nothing of the interleaving is left
        have hlast : continuations payload.length ≤ i + 1 := by
          by_contra hno
          have := lt_continuations.mp (Nat.lt_of_not_le hno)
          omega
        rw [List.drop_eq_nil_of_le (by simpa using hlast), List.map_nil] at hes
        cases hes
        refine ⟨s₁, answer cid cmd payload r.uuid, r.uuid, ?_, ?_⟩
        · rw [HID.run_cons_ok (hcall.trans hd)]
          simp [HID.run, Except.map]
        · exact filter_answer_own cid cmd payload r.uuid
  | @foreign p q ps es r hq hes ih =>
      intro i s h hi hps hdraw
      -- A foreign packet can only fail while it draws a channel, which is ruled out.
      cases hcall : s.call (.receive q r) with
      | error f =>
          cases h.receive_error hq hcall
          exact absurd (HID.run_cons_error hcall) hdraw
      | ok a =>
          obtain ⟨s₁, out₁⟩ := a
          obtain ⟨h₁, hfor⟩ := h.received hq (HID.receive_cases hcall)
          rw [HID.run_cons_ok hcall] at hdraw ⊢
          obtain ⟨s', out, id, hrun, hout⟩ := ih h₁ hi hps (fun e => hdraw (by rw [e]; rfl))
          exact ⟨s', out₁ ++ out, id, by rw [hrun]; rfl,
            by rw [List.filter_append, filter_foreign hfor, hout, List.nil_append]⟩
  | tick hnow hes ih =>
      intro i s h hi hps hdraw
      rw [HID.run_cons_ok (h.timeout hnow)] at hdraw ⊢
      obtain ⟨s', out, id, hrun, hout⟩ := ih h hi hps (fun e => hdraw (by rw [e]; rfl))
      exact ⟨s', out, id, by rw [hrun]; rfl, hout⟩

/-- **A message is reassembled exactly, under any interleaving.**  From a state with no fragment
and no request, on an allocated channel, the reports of a PING or CBOR message arrive in order
with any reports of other channels (and timer calls before the fragment's deadline) between
them.  If every allocation loop among them ends, the calls return, and apart from reports on
other channels their effects are the answer to this message alone. -/
theorem reassembly {r : Readings} {p : Data} {ps : List Data} {es : List Event}
    (hmem : cid ∈ s.channels) (h0 : cid ≠ 0) (hb : cid ≠ broadcast) (hbusy : s.busy = none)
    (hfrag : s.fragment = none) (hcmd : cmd = Cmd.ping ∨ cmd = Cmd.cbor)
    (hp : packets cid cmd payload = .ok (p :: ps))
    (hes : Interleaved cid (r.started + 3000) ps es)
    (hdraw : s.run (.receive p r :: es) ≠ .error .drawing) :
    ∃ s' out id, s.run (.receive p r :: es) = .ok (s', out) ∧
      out.filter (fun e => !e.isForeign cid) = answer cid cmd payload id := by
  have hlen : payload.length ≤ maxMessage := by
    by_contra hno
    rw [packets, if_pos (by omega)] at hp
    cases hp
  rw [packets_ok hlen] at hp
  obtain ⟨rfl, rfl⟩ := List.cons.inj (Except.ok.inj hp)
  have hcall : s.call (.receive (initPacket cid cmd payload) r) = _ :=
    receive_first hmem h0 hb hbusy hfrag hlen hcmd r
  have hmem' : cid ∈ (s.touch cid).channels := (HID.mem_touch hmem).mpr hmem
  rcases dispatch_collected cmd (r.started + 3000) 0 hmem'
      (show (s.touch cid).busy = none from hbusy) hlen r with
    ⟨hmore, s₁, hd, h₁⟩ | ⟨hdone, s₁, hd⟩
  · rw [HID.run_cons_ok (hcall.trans hd)] at hdraw ⊢
    obtain ⟨s', out, id, hrun, hout⟩ := Collecting.run hes h0 hb hlen h₁
      (lt_continuations.mpr hmore) rfl (fun e => hdraw (by rw [e]; rfl))
    exact ⟨s', out, id, by rw [hrun]; rfl, hout⟩
  · have hnone : continuations payload.length = 0 := by
      by_contra hno
      have := lt_continuations.mp (Nat.pos_of_ne_zero hno)
      omega
    rw [hnone] at hes
    cases hes
    refine ⟨s₁, answer cid cmd payload r.uuid, r.uuid, ?_, filter_answer_own cid cmd payload _⟩
    rw [HID.run_cons_ok (hcall.trans hd)]
    simp [HID.run, Except.map]

/-- A 100-byte PING in two reports, with a broadcast INIT between them that evicts nothing of
this channel. -/
theorem reassembly_two_reports :
    ∃ s' out id,
      HID.run ⟨[7], none, none⟩
        [.receive (initPacket 7 Cmd.ping (List.replicate 100 1)) ⟨[], "a", 0, 0, 0⟩,
          .receive (initPacket broadcast Cmd.init [1, 2, 3, 4, 5, 6, 7, 8]) ⟨[9], "b", 1, 1, 1⟩,
          .receive (continuationPacket 7 (List.replicate 100 1) 0) ⟨[], "c", 2, 2, 2⟩] =
        .ok (s', out) ∧
      out.filter (fun e => !e.isForeign 7) = answer 7 Cmd.ping (List.replicate 100 1) id :=
  reassembly (by decide) (by decide) (by decide) rfl rfl (.inl rfl) rfl
    (.foreign _ (by decide +kernel) (.own _ .done)) (by decide +kernel)

end Ashacky.Hid
