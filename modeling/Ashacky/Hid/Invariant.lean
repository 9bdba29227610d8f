import Ashacky.Hid.Transport

/-!
# Hid — the representation invariant

`HID.Invariant` is what holds of the three fields between calls: a request and a fragment are
never live together, their channel is allocated, at most 64 channels are, and a fragment still
misses bytes, having gathered whole packets so far (57 bytes, then 59 for each continuation).

* `invariant_step`: every call that returns keeps it, so it holds in every reachable state.
* `exists_victim`: with 64 channels allocated, one of them is neither busy nor reassembling.
  At most one channel is protected, since a request and a fragment exclude each other.
* `receive_broadcast_init`: so a broadcast INIT always finds room for the channel it draws.
-/

namespace Ashacky.Hid
open Ashacky.Support

namespace HID

/-- The representation invariant of `HID`. -/
structure Invariant (s : HID) : Prop where
  exclusive : s.busy = none ∨ s.fragment = none
  nodup : s.channels.Nodup
  bounded : s.channels.length ≤ 64
  assigned : ∀ c ∈ s.channels, c ≠ 0 ∧ c ≠ broadcast
  busyChannel : ∀ b, s.busy = some b → b.cid ∈ s.channels
  fragmentChannel : ∀ f, s.fragment = some f → f.cid ∈ s.channels
  fragmentLength : ∀ f, s.fragment = some f →
    f.length ≤ maxMessage ∧ f.data.length < f.length ∧ f.data.length = 57 + 59 * f.sequence

variable {s s' : HID} {packet : Data} {r : Readings} {out : List Effect}

theorem Invariant.new : HID.new.Invariant := by
  constructor <;> simp [HID.new]

/-- Dropping the fragment, the request, or both keeps the invariant. -/
theorem Invariant.clear (h : s.Invariant) {f : Option Fragment} {b : Option Busy}
    (hf : f = s.fragment ∨ f = none) (hb : b = s.busy ∨ b = none) :
    Invariant { s with fragment := f, busy := b } where
  exclusive := by
    rcases hf with rfl | rfl <;> rcases hb with rfl | rfl <;> simp [h.exclusive]
  nodup := h.nodup
  bounded := h.bounded
  assigned := h.assigned
  busyChannel b' e := by
    rcases hb with rfl | rfl
    · exact h.busyChannel b' e
    · cases e
  fragmentChannel f' e := by
    rcases hf with rfl | rfl
    · exact h.fragmentChannel f' e
    · cases e
  fragmentLength f' e := by
    rcases hf with rfl | rfl
    · exact h.fragmentLength f' e
    · cases e

/-! ### Channels -/

theorem mem_touch {c cid : UInt32} (hcid : cid ∈ s.channels) :
    c ∈ (s.touch cid).channels ↔ c ∈ s.channels := by
  by_cases h : c = cid
  · simp [touch, h, hcid]
  · simp [touch, h, List.mem_erase_of_ne h]

/-- `move_to_end` only reorders the channels. -/
theorem Invariant.touch (h : s.Invariant) {cid : UInt32} (hcid : cid ∈ s.channels) :
    (s.touch cid).Invariant where
  exclusive := h.exclusive
  nodup := by
    have hnot : cid ∉ s.channels.erase cid := h.nodup.not_mem_erase
    exact (h.nodup.erase cid).append (List.nodup_singleton cid) (by simpa using hnot)
  bounded := by
    have hpos := List.length_pos_of_mem hcid
    have := h.bounded
    simp only [HID.touch, List.length_append, List.length_erase_of_mem hcid, List.length_singleton]
    omega
  assigned c hc := h.assigned c ((mem_touch hcid).mp hc)
  busyChannel b e := (mem_touch hcid).mpr (h.busyChannel b e)
  fragmentChannel f e := (mem_touch hcid).mpr (h.fragmentChannel f e)
  fragmentLength := h.fragmentLength

/-- Two protected channels are one: the request's, or the fragment's. -/
theorem Invariant.protected_unique (h : s.Invariant) {c d : UInt32}
    (hc : s.isProtected c = true) (hd : s.isProtected d = true) : c = d := by
  simp only [isProtected, Bool.or_eq_true, any_cid_iff] at hc hd
  rcases h.exclusive with hb | hf
  · simp only [hb, reduceCtorEq, false_and, exists_false, false_or] at hc hd
    obtain ⟨f, hf, rfl⟩ := hc
    obtain ⟨f', hf', rfl⟩ := hd
    rw [hf] at hf'
    cases hf'
    rfl
  · simp only [hf, reduceCtorEq, false_and, exists_false, or_false] at hc hd
    obtain ⟨b, hb, rfl⟩ := hc
    obtain ⟨b', hb', rfl⟩ := hd
    rw [hb] at hb'
    cases hb'
    rfl

/-- **A full table has a victim.** -/
theorem Invariant.exists_victim (h : s.Invariant) (hfull : 64 ≤ s.channels.length) :
    ∃ v ∈ s.channels, s.victim = some v ∧ s.isProtected v = false := by
  cases hv : s.victim with
  | some v =>
      exact ⟨v, List.mem_of_find?_eq_some hv, rfl, by simpa using List.find?_some hv⟩
  | none =>
      -- otherwise every channel is the protected one, and the table has one entry
      have hall : ∀ c ∈ s.channels, s.isProtected c = true := by
        simpa [victim, List.find?_eq_none] using hv
      have hone : s.channels.length ≤ 1 := by
        match hcs : s.channels with
        | [] => simp
        | [c] => simp
        | c :: d :: cs =>
            have hne := h.nodup
            rw [hcs] at hne hall
            have hcd : c = d := h.protected_unique (hall c (by simp)) (hall d (by simp))
            simp [hcd] at hne
      omega

theorem isFree_iff {c : UInt32} :
    s.isFree c = true ↔ c ≠ 0 ∧ c ≠ broadcast ∧ c ∉ s.channels := by
  simp [isFree, and_assoc]

theorem mem_allocate {c assigned : UInt32} (h : c ∈ s.allocate assigned) :
    c ∈ s.channels ∨ c = assigned := by
  unfold allocate at h
  split at h
  · split at h
    · rcases List.mem_append.mp h with h | h
      · exact .inl (List.mem_of_mem_erase h)
      · exact .inr (List.mem_singleton.mp h)
    · simpa using h
  · simpa using h

theorem assigned_mem_allocate (s : HID) (assigned : UInt32) : assigned ∈ s.allocate assigned := by
  unfold allocate
  split
  · split <;> simp
  · simp

/-- A protected channel survives every allocation. -/
theorem protected_mem_allocate {c : UInt32} (assigned : UInt32) (hc : c ∈ s.channels)
    (hp : s.isProtected c = true) : c ∈ s.allocate assigned := by
  unfold allocate
  split
  · split
    · rename_i v hv
      have hne : c ≠ v := by
        rintro rfl
        have := List.find?_some hv
        simp [hp] at this
      exact List.mem_append_left _ ((List.mem_erase_of_ne hne).mpr hc)
    · exact List.mem_append_left _ hc
  · exact List.mem_append_left _ hc

theorem Invariant.allocate (h : s.Invariant) {assigned : UInt32} (hfree : s.isFree assigned = true) :
    Invariant { s with channels := s.allocate assigned } := by
  obtain ⟨hzero, hbroad, hnew⟩ := isFree_iff.mp hfree
  have hkeep : ∀ c ∈ s.channels, s.isProtected c = true → c ∈ s.allocate assigned :=
    fun c hc hp => protected_mem_allocate assigned hc hp
  refine ⟨h.exclusive, ?_, ?_, fun c hc => ?_, fun b e => ?_, fun f e => ?_, h.fragmentLength⟩
  · unfold HID.allocate
    split
    · split
      · exact (h.nodup.erase _).append (List.nodup_singleton _)
          (by simpa using fun hm => hnew (List.mem_of_mem_erase hm))
      · exact h.nodup.append (List.nodup_singleton _) (by simpa using hnew)
    · exact h.nodup.append (List.nodup_singleton _) (by simpa using hnew)
  · have hb := h.bounded
    unfold HID.allocate
    split
    · rename_i hfull
      obtain ⟨v, hv, hvict, -⟩ := h.exists_victim hfull
      simp only [hvict, List.length_append, List.length_erase_of_mem hv, List.length_singleton]
      omega
    · simp only [List.length_append, List.length_singleton]
      omega
  · rcases mem_allocate hc with hc | rfl
    · exact h.assigned c hc
    · exact ⟨hzero, hbroad⟩
  · exact hkeep _ (h.busyChannel b e) (by simp [isProtected, show s.busy = some b from e])
  · exact hkeep _ (h.fragmentChannel f e) (by simp [isProtected, show s.fragment = some f from e])

/-! ### Fragments -/

/-- The lengths of a fragment `receive` has just started or extended. -/
theorem gathers_lengths (h : s.Invariant) (hlen : packet.length = 64) {part : Fragment}
    (hp : Gathers s packet r part) :
    part.cid = channelOf packet ∧ part.length ≤ maxMessage ∧
      part.data.length ≤ part.length ∧
      (part.data.length < part.length → part.data.length = 57 + 59 * part.sequence) := by
  cases hp with
  | start _ hmax _ =>
      simp only [length_slice, hlen]
      refine ⟨trivial, hmax, ?_, ?_⟩ <;> omega
  | next hfrag hcid _ =>
      obtain ⟨hmax, hlt, heq⟩ := h.fragmentLength _ hfrag
      simp only [List.length_append, length_slice, hlen]
      refine ⟨hcid, hmax, ?_, ?_⟩ <;> omega

/-- What `dispatch` leaves behind keeps the invariant. -/
theorem Invariant.dispatch (h : s.Invariant) (hbusy : s.busy = none) {part : Fragment}
    (hcid : part.cid ∈ s.channels) (hmax : part.length ≤ maxMessage)
    (hle : part.data.length ≤ part.length)
    (hcount : part.data.length < part.length → part.data.length = 57 + 59 * part.sequence)
    (hd : s.dispatch part.cid part r = .ok (s', out)) : s'.Invariant := by
  unfold HID.dispatch at hd
  split at hd
  · rename_i hfull
    split at hd
    · rw [send_eq (by omega)] at hd
      cases hd
      exact h.clear (.inr rfl) (.inl rfl)
    split at hd
    · rw [refuse_eq] at hd
      cases hd
      exact h.clear (.inr rfl) (.inl rfl)
    · cases hd
      refine ⟨.inr rfl, h.nodup, h.bounded, h.assigned, fun b e => ?_, nofun, nofun⟩
      cases e; exact hcid
  · rename_i hpart
    cases hd
    refine ⟨.inl hbusy, h.nodup, h.bounded, h.assigned, h.busyChannel, fun f e => ?_,
      fun f e => ?_⟩
    · cases e; exact hcid
    · cases e; exact ⟨hmax, by omega, hcount (by omega)⟩

/-! ### Calls -/

theorem Invariant.received (h : s.Invariant) (hlen : packet.length = 64)
    (hr : Received s packet r s' out) : s'.Invariant := by
  cases hr with
  | ignored | refused | confirmed => exact h
  | allocated _ hfree => exact h.allocate hfree
  | resynced => exact h.clear (.inr rfl) (.inl rfl)
  | aborted => exact h.clear (.inr rfl) (.inr rfl)
  | turnedAway _ hcid | idle hcid => exact h.touch hcid
  | cancelled hcid => exact (h.touch hcid).clear (.inr rfl) (.inr rfl)
  | dropped hcid => exact (h.touch hcid).clear (.inr rfl) (.inl rfl)
  | gathered hcid hbusy hpart hdisp =>
      obtain ⟨hpc, hmax, hle, hcount⟩ := gathers_lengths h hlen hpart
      rw [← hpc] at hcid hdisp
      exact (h.touch hcid).dispatch hbusy ((mem_touch hcid).mpr hcid) hmax hle hcount hdisp

theorem Invariant.complete (h : s.Invariant) {requestId : String} {payload : Data}
    (hc : s.complete requestId payload = .ok (s', out)) : s'.Invariant := by
  unfold HID.complete at hc
  split at hc
  · split at hc
    · rw [send_eq (by split <;> simp_all [maxMessage])] at hc
      cases hc
      exact h.clear (.inl rfl) (.inr rfl)
    · cases hc; exact h
  · cases hc; exact h

theorem Invariant.timeoutFragment (h : s.Invariant) {now : Nat}
    (ht : s.timeoutFragment now = .ok (s', out)) : s'.Invariant := by
  unfold HID.timeoutFragment at ht
  split at ht
  · split at ht
    · rw [refuse_eq] at ht
      cases ht
      exact h.clear (.inr rfl) (.inl rfl)
    · cases ht; exact h
  · cases ht; exact h

theorem Invariant.timeoutBusy (h : s.Invariant) {now : Nat}
    (ht : s.timeoutBusy now = .ok (s', out)) : s'.Invariant := by
  unfold HID.timeoutBusy at ht
  split at ht
  · rename_i b hb
    rw [send_byte, send_byte] at ht
    split at ht
    · cases ht
      exact h.clear (.inl rfl) (.inr rfl)
    split at ht
    · cases ht
      refine ⟨.inr ?_, h.nodup, h.bounded, h.assigned, fun b' e => ?_, h.fragmentChannel,
        h.fragmentLength⟩
      · exact h.exclusive.resolve_left (by simp [hb])
      · cases e; exact h.busyChannel b hb
    · cases ht; exact h
  · cases ht; exact h

theorem timeout_cases {now : Nat} (ht : s.timeout now = .ok (s', out)) :
    ∃ s₁ out₁ out₂, s.timeoutFragment now = .ok (s₁, out₁) ∧
      s₁.timeoutBusy now = .ok (s', out₂) ∧ out = out₁ ++ out₂ := by
  unfold HID.timeout at ht
  cases h₁ : s.timeoutFragment now with
  | error e => rw [h₁] at ht; cases ht
  | ok p =>
      cases h₂ : p.1.timeoutBusy now with
      | error e =>
          rw [h₁] at ht
          simp only [bind, Except.bind, h₂] at ht
          cases ht
      | ok q =>
          rw [h₁] at ht
          simp only [bind, Except.bind, h₂, pure, Except.pure] at ht
          cases ht
          exact ⟨p.1, p.2, q.2, rfl, h₂, rfl⟩

theorem Invariant.timeout (h : s.Invariant) {now : Nat}
    (ht : s.timeout now = .ok (s', out)) : s'.Invariant := by
  obtain ⟨s₁, out₁, out₂, h₁, h₂, -⟩ := timeout_cases ht
  exact (h.timeoutFragment h₁).timeoutBusy h₂

theorem Invariant.abort (h : s.Invariant) (hr : s.abort false = .ok (s', out)) : s'.Invariant := by
  unfold HID.abort at hr
  simp only [Bool.false_eq_true, if_false] at hr
  split at hr
  · cases hr; exact h.clear (.inr rfl) (.inl rfl)
  · cases hr; exact h.clear (.inr rfl) (.inr rfl)

/-- **Every call keeps the representation invariant.** -/
theorem invariant_step {e : Event} (h : s.Invariant) (hs : HID.Step s e out s') :
    s'.Invariant := by
  cases e with
  | receive packet r =>
      by_cases hlen : packet.length = 64
      · exact h.received hlen (receive_cases hs)
      · simp only [HID.Step, call, receive, ne_eq, hlen, not_false_eq_true, if_true] at hs
        cases hs; exact h
  | complete => exact h.complete hs
  | timeout => exact h.timeout hs
  | abort => exact h.abort hs

/-! ### Allocation -/

/-- At most 64 channels leave a number free. -/
theorem Invariant.exists_free (h : s.Invariant) : ∃ c, s.isFree c = true := by
  by_contra hno
  push Not at hno
  -- 65 numbers, none of them zero or the broadcast channel, would all be allocated
  have hsub : (List.range 65).map (fun n => UInt32.ofNat (n + 1)) ⊆ s.channels := by
    intro c hc
    have hcand : c ≠ 0 ∧ c ≠ broadcast := by
      obtain ⟨n, hn, rfl⟩ := List.mem_map.mp hc
      have hn : n < 65 := List.mem_range.mp hn
      constructor <;> intro e <;> have := congrArg UInt32.toNat e <;>
        simp [broadcast] at this <;> omega
    by_contra hmem
    exact hno c (isFree_iff.mpr ⟨hcand.1, hcand.2, hmem⟩)
  have hnodup : ((List.range 65).map (fun n => UInt32.ofNat (n + 1))).Nodup := by decide
  have := (hnodup.subperm hsub).length_le
  have := h.bounded
  simp at *
  omega

/-- **A broadcast INIT is always served.**  Once the loop has drawn a free number, that channel
is allocated, and at most 64 are. -/
theorem Invariant.receive_broadcast_init (h : s.Invariant) (hlen : packet.length = 64)
    (hcid : channelOf packet = broadcast) (hcmd : commandOf packet = Cmd.init)
    (h8 : lengthOf packet = 8) (hdraw : ∃ c ∈ r.draws, s.isFree c = true) :
    ∃ assigned s' out, s.receive packet r = .ok (s', out) ∧ s.isFree assigned = true ∧
      assigned ∈ s'.channels ∧ s'.channels.length ≤ 64 := by
  obtain ⟨c, hc, hfree⟩ := hdraw
  obtain ⟨assigned, hfind⟩ := Option.isSome_iff_exists.mp (List.find?_isSome.mpr ⟨c, hc, hfree⟩)
  have hfree' := List.find?_some hfind
  refine ⟨assigned, { s with channels := s.allocate assigned },
    emits broadcast Cmd.init (initResponse packet assigned), ?_, hfree',
    assigned_mem_allocate s assigned, (h.allocate hfree').bounded⟩
  have hne : broadcast ≠ 0 := by decide
  simp [receive, receiveInit, hlen, hcid, hcmd, h8, hfind, hne, Except.map]

/-- **The representation invariant, over every run.**  It holds in every state reachable from
the empty transport; a full table has an unprotected victim and some number is always free; and
a broadcast INIT whose loop draws a free number gets its channel, within the 64. -/
theorem representation_invariant {t : List (Event × List Effect)}
    (h : Steps HID.Step HID.new t s) :
    s.Invariant ∧
      (s.channels.length = 64 →
        ∃ v ∈ s.channels, s.victim = some v ∧ s.isProtected v = false) ∧
      (∃ c, s.isFree c = true) ∧
      ∀ packet r, packet.length = 64 → channelOf packet = broadcast →
        commandOf packet = Cmd.init → lengthOf packet = 8 → (∃ c ∈ r.draws, s.isFree c = true) →
        ∃ assigned s' out, s.receive packet r = .ok (s', out) ∧ s.isFree assigned = true ∧
          assigned ∈ s'.channels ∧ s'.channels.length ≤ 64 := by
  have hs : s.Invariant := Steps.invariant invariant_step h .new
  exact ⟨hs, fun hfull => hs.exists_victim hfull.ge, hs.exists_free,
    fun _ _ => hs.receive_broadcast_init⟩

/-- A run that stops in the middle of a message: a channel is allocated, then the first packet
of a 100-byte PING arrives on it. -/
theorem representation_invariant_reassembling :
    ∃ t s, Steps HID.Step HID.new t s ∧ s.fragment.isSome = true ∧ s.Invariant := by
  have run : Steps HID.Step HID.new _ _ := .more
    (show HID.Step HID.new (.receive (initPacket broadcast Cmd.init [1, 2, 3, 4, 5, 6, 7, 8])
        ⟨[0, 7], "a", 0, 0, 0⟩)
      (emits broadcast Cmd.init [1, 2, 3, 4, 5, 6, 7, 8, 0, 0, 0, 7, 2, 0, 1, 0, 0x0c])
      ⟨[7], none, none⟩ by decide +kernel)
    (.one (show HID.Step _ (.receive (initPacket 7 Cmd.ping (List.replicate 100 1))
        ⟨[], "b", 10, 10, 10⟩) []
      ⟨[7], some ⟨7, Cmd.ping, 100, List.replicate 57 1, 0, 3010⟩, none⟩ by decide +kernel))
  exact ⟨_, _, run, rfl, (representation_invariant run).1⟩

end HID

end Ashacky.Hid
