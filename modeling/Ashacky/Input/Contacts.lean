import Mathlib.Data.Nat.Bitwise
import Ashacky.Input.Trackpad
import Ashacky.Support.Effect

/-!
# Input — Contacts

The events of the touchpad against the frames they come from: what the type-B protocol makes of them
is, after each frame, the contacts of the frame.

* `validate_valid`: what is accepted has at most ten points, of distinct identities.
* `Held`: the slots that the pad keeps are the ones where the device has a contact.
* `release_spec`, `place_spec`: the two loops of `frame` keep this; a free slot is always found, for
  the slots in use are of identities of the frame, and the one at hand is not among them.
* `frame_spec`: what a frame leaves.
-/

namespace Ashacky.Input
open Ashacky.Support Multitouch

/-! ### What is accepted -/

structure Frame.Valid (f : Frame) : Prop where
  count : f.points.length ≤ 10
  distinct : (f.points.map Point.ident).Nodup

theorem validatePoint_ident {seen : List Nat} {v : Value} {p : Point}
    (h : validatePoint seen v = .ok p) : p.ident ∉ seen := by
  unfold validatePoint at h
  split at h
  · rename_i i _ _
    split at h
    · cases h
    · rename_i ident hident
      split at h
      · cases h
        cases i with
        | int n =>
            obtain ⟨⟨-, -, hseen⟩, hn⟩ := Option.ite_none_right_eq_some.mp hident
            exact Option.some.inj hn ▸ hseen
        | _ => cases hident
      · cases h
  · cases h

theorem validatePoints_spec {values : List Value} {seen : List Nat} {points : List Point}
    (h : validatePoints seen values = .ok points) :
    points.length = values.length ∧ (points.map Point.ident).Nodup ∧
      ∀ p ∈ points, p.ident ∉ seen := by
  induction values generalizing seen points with
  | nil =>
      cases h
      exact ⟨rfl, List.nodup_nil, nofun⟩
  | cons v values ih =>
      rw [validatePoints] at h
      obtain ⟨point, hpoint, h⟩ := except_bind_eq_ok.mp h
      obtain ⟨rest, hrest, h⟩ := except_bind_eq_ok.mp h
      cases h
      obtain ⟨hlength, hnodup, hseen⟩ := ih hrest
      refine ⟨by simp [hlength], ?_, ?_⟩
      · rw [List.map_cons, List.nodup_cons]
        refine ⟨fun hmem => ?_, hnodup⟩
        obtain ⟨p, hp, hident⟩ := List.mem_map.mp hmem
        exact hseen p hp (hident ▸ List.mem_cons_self)
      · intro p hp
        rcases List.mem_cons.mp hp with rfl | hp
        · exact validatePoint_ident hpoint
        · exact fun hmem => hseen p hp (List.mem_cons_of_mem _ hmem)

/-- **What is accepted is valid.** -/
theorem validate_valid {v : Value} {f : Frame} (h : validate v = .ok f) : f.Valid := by
  unfold validate at h
  split at h
  · split at h
    · rename_i touches _
      split at h
      · cases h
      · rename_i hcount
        obtain ⟨points, hpoints, h⟩ := except_bind_eq_ok.mp h
        obtain ⟨buttons, -, h⟩ := except_bind_eq_ok.mp h
        cases h
        obtain ⟨hlength, hnodup, -⟩ := validatePoints_spec hpoints
        exact ⟨by simp only; omega, hnodup⟩
    · cases h
  · cases h

/-! ### The slots in use -/

/-- The slots that the pad keeps are the ones where the device has a contact. -/
structure Held (slots : Slots) (d : Device Key) : Prop where
  distinct : DistinctKeys slots
  apart : (slots.map Prod.snd).Nodup
  below : ∀ e ∈ slots, e.2 < 10
  shown : ∀ slot id : Int, (d.slots slot).trackingId = id ∧ 0 ≤ id ↔
    ∃ e ∈ slots, (e.1 : Int) = id ∧ (e.2 : Int) = slot

section Held
variable {slots : Slots} {d : Device Key}

theorem held_new : Held Pad.new.slots (Device.new : Device Key) where
  distinct := List.nodup_nil
  apart := List.nodup_nil
  below := nofun
  shown := by
    intro slot id
    constructor
    · rintro ⟨rfl, hid⟩
      change (0 : Int) ≤ -1 at hid
      omega
    · rintro ⟨e, he, -⟩
      cases he

theorem Held.ident_inj (h : Held slots d) {e e' : Nat × Nat} (he : e ∈ slots) (he' : e' ∈ slots)
    (heq : e.1 = e'.1) : e = e' :=
  List.inj_on_of_nodup_map h.distinct he he' heq

theorem Held.slot_inj (h : Held slots d) {e e' : Nat × Nat} (he : e ∈ slots) (he' : e' ∈ slots)
    (heq : e.2 = e'.2) : e = e' :=
  List.inj_on_of_nodup_map h.apart he he' heq

/-- The keys and the position of the pointer do not matter. -/
theorem Held.of_slots (h : Held slots d) {d' : Device Key} (hs : d'.slots = d.slots) :
    Held slots d' :=
  ⟨h.distinct, h.apart, h.below, fun slot id => by rw [hs]; exact h.shown slot id⟩

/-- A contact ends. -/
theorem Held.release (h : Held slots d) {ident slot : Nat} (he : (ident, slot) ∈ slots) :
    Held (slots.filter (·.1 ≠ ident)) (d.replay [.abs .slot slot, .abs .trackingId (-1)]) where
  distinct := (List.filter_sublist.map _).nodup h.distinct
  apart := (List.filter_sublist.map _).nodup h.apart
  below := fun e he => h.below e (List.mem_of_mem_filter he)
  shown := by
    intro slot' id
    rw [Device.replay_release]
    by_cases hs : slot' = slot
    · subst hs
      rw [Function.update_self]
      constructor
      · rintro ⟨rfl, hid⟩
        change (0 : Int) ≤ -1 at hid
        omega
      · rintro ⟨e, hmem, -, hslot⟩
        obtain ⟨hmem, hne⟩ := List.mem_filter.mp hmem
        rw [h.slot_inj hmem he (by exact_mod_cast hslot)] at hne
        simp at hne
    · rw [Function.update_of_ne hs, h.shown]
      constructor
      · rintro ⟨e, hmem, hid, hslot⟩
        refine ⟨e, List.mem_filter.mpr ⟨hmem, ?_⟩, hid, hslot⟩
        simp only [ne_eq, decide_not, Bool.not_eq_eq_eq_not, Bool.not_true, decide_eq_false_iff_not]
        intro hident
        rw [h.ident_inj hmem he hident] at hslot
        exact hs hslot.symm
      · rintro ⟨e, hmem, hid, hslot⟩
        exact ⟨e, List.mem_of_mem_filter hmem, hid, hslot⟩

/-- A contact that has its slot is reported. -/
theorem Held.move (h : Held slots d) (slot : Int) (x y : Int) :
    Held slots (d.replay (Device.touch slot none x y)) where
  distinct := h.distinct
  apart := h.apart
  below := h.below
  shown := by
    intro slot' id
    rw [Device.replay_touch, ← h.shown]
    by_cases hs : slot' = slot
    · rw [hs, Function.update_self]
      rfl
    · rw [Function.update_of_ne hs]

/-- A contact starts in a free slot. -/
theorem Held.start (h : Held slots d) {ident slot : Nat} (hident : ident ∉ slots.map Prod.fst)
    (hslot : slot ∉ slots.map Prod.snd) (hbelow : slot < 10) (x y : Int) :
    Held (put slots ident slot) (d.replay (Device.touch slot (some (ident : Int)) x y)) := by
  have hput : put slots ident slot = slots ++ [(ident, slot)] := by
    rw [put, if_neg fun hsome => hident (lookup_isSome_iff.mp hsome)]
  rw [hput]
  refine ⟨?_, ?_, ?_, ?_⟩
  · rw [← hput]
    exact h.distinct.put ident slot
  · rw [List.map_append, List.nodup_append]
    refine ⟨h.apart, List.nodup_singleton _, ?_⟩
    rintro a ha b hb rfl
    obtain rfl : a = slot := List.mem_singleton.mp hb
    exact hslot ha
  · intro e he
    rcases List.mem_append.mp he with he | he
    · exact h.below e he
    · rw [List.mem_singleton.mp he]
      exact hbelow
  · intro slot' id
    rw [Device.replay_touch]
    simp only [List.mem_append, List.mem_singleton]
    by_cases hs : slot' = slot
    · subst hs
      rw [Function.update_self]
      constructor
      · rintro ⟨hid, -⟩
        exact ⟨_, .inr rfl, hid, rfl⟩
      · rintro ⟨e, hmem | rfl, hid, heq⟩
        · exact absurd (List.mem_map.mpr ⟨e, hmem, by exact_mod_cast heq⟩) hslot
        · exact ⟨hid, by rw [← hid]; exact Int.natCast_nonneg ident⟩
    · rw [Function.update_of_ne hs, h.shown]
      constructor
      · rintro ⟨e, hmem, hid, heq⟩
        exact ⟨e, .inl hmem, hid, heq⟩
      · rintro ⟨e, hmem | rfl, hid, heq⟩
        · exact ⟨e, hmem, hid, heq⟩
        · exact absurd heq.symm hs

end Held

/-! ### The two loops -/

section Loops
variable {slots : Slots} {d : Device Key}

/-- What is released is what the frame does not have. -/
theorem release_spec (h : Held slots d) (ids : List Nat) {idents : List Nat} (hnodup : idents.Nodup)
    (hidents : ∀ ident ∈ idents, ident ∈ slots.map Prod.fst) :
    ∃ writes slots', Pad.release ids idents slots = some (writes, slots') ∧
      Held slots' (d.replay writes) ∧ .syn ∉ writes ∧
      ∀ e, e ∈ slots' ↔ e ∈ slots ∧ (e.1 ∈ ids ∨ e.1 ∉ idents) := by
  induction idents generalizing slots d with
  | nil => exact ⟨[], slots, rfl, h, List.not_mem_nil, by simp⟩
  | cons ident idents ih =>
      obtain ⟨hnot, hnodup⟩ := List.nodup_cons.mp hnodup
      by_cases hkept : ident ∈ ids
      · obtain ⟨writes, slots', hrelease, hheld, hsyn, hmem⟩ :=
          ih h hnodup fun i hi => hidents i (List.mem_cons_of_mem _ hi)
        refine ⟨writes, slots', by rw [Pad.release, if_pos hkept, hrelease], hheld, hsyn, fun e => ?_⟩
        rw [hmem, List.mem_cons, not_or]
        by_cases he : e.1 = ident
        · simp [he, hkept]
        · simp [he]
      · obtain ⟨slot, hslot⟩ := Option.isSome_iff_exists.mp
          (lookup_isSome_iff.mpr (hidents ident List.mem_cons_self))
        obtain ⟨writes, slots', hrelease, hheld, hsyn, hmem⟩ :=
          ih (h.release (mem_of_lookup hslot)) hnodup fun i hi => by
            rw [mem_keys_drop]
            exact ⟨hidents i (List.mem_cons_of_mem _ hi), fun heq => hnot (heq ▸ hi)⟩
        refine ⟨.abs .slot slot :: .abs .trackingId (-1) :: writes, slots', ?_, hheld, ?_, fun e => ?_⟩
        · rw [Pad.release, if_neg hkept, hslot]
          simp only [Option.bind_eq_bind, Option.bind_some, hrelease]
          rfl
        · simpa using hsyn
        · rw [hmem, List.mem_filter, List.mem_cons, not_or]
          by_cases he : e.1 = ident
          · simp [he, hkept]
          · simp [he]

/-- **There is a free slot**, if the slots in use are of fewer than ten identities. -/
theorem freeSlot_spec (hlength : slots.length < 10) :
    ∃ slot, Pad.freeSlot slots = some slot ∧ slot ∉ slots.map Prod.snd ∧ slot < 10 := by
  cases hfree : Pad.freeSlot slots with
  | some slot =>
      have hfound := List.find?_some hfree
      have hrange := List.mem_of_find?_eq_some hfree
      exact ⟨slot, rfl, by simpa using hfound, List.mem_range.mp hrange⟩
  | none =>
      have hall : List.range 10 ⊆ slots.map Prod.snd := by
        intro n hn
        simpa using List.find?_eq_none.mp hfree n hn
      have hle := (List.subperm_of_subset List.nodup_range hall).length_le
      rw [List.length_range, List.length_map] at hle
      omega

/-- The identity of a contact that starts. -/
def started (p : Point) (slots : Slots) : Option Int :=
  if (slots.lookup p.ident).isNone then some (p.ident : Int) else none

/-- A point has its slot, or is given a free one. -/
theorem assign_spec (h : Held slots d) (p : Point) {ids : List Nat} (hcount : ids.length ≤ 10)
    (hids : ∀ e ∈ slots, e.1 ∈ ids) (hp : p.ident ∈ ids) (x y : Int) :
    ∃ slots' slot, Pad.assign p slots = some slots' ∧ slots'.lookup p.ident = some slot ∧
      Held slots' (d.replay (Device.touch slot (started p slots) x y)) ∧
      (∀ e ∈ slots, e ∈ slots') ∧ ∀ e ∈ slots', e ∈ slots ∨ e.1 = p.ident := by
  cases hl : slots.lookup p.ident with
  | some slot =>
      have hassign : Pad.assign p slots = some slots := by
        rw [Pad.assign, hl]
        rfl
      have hstarted : started p slots = none := by
        rw [started, hl]
        rfl
      rw [hassign, hstarted]
      exact ⟨slots, slot, rfl, hl, h.move slot x y, fun e he => he, fun e he => .inl he⟩
  | none =>
      have hident : p.ident ∉ slots.map Prod.fst := by
        rw [← lookup_isSome_iff, hl]
        simp
      -- The identities in use are others of the frame, so fewer than ten.
      have hlength : slots.length < 10 := by
        have hsub : p.ident :: slots.map Prod.fst ⊆ ids := by
          intro i hi
          rcases List.mem_cons.mp hi with rfl | hi
          · exact hp
          · obtain ⟨e, he, rfl⟩ := List.mem_map.mp hi
            exact hids e he
        have hnodup : (p.ident :: slots.map Prod.fst).Nodup := List.nodup_cons.mpr ⟨hident, h.distinct⟩
        have hle := (List.subperm_of_subset hnodup hsub).length_le
        rw [List.length_cons, List.length_map] at hle
        omega
      obtain ⟨slot, hfree, hslot, hbelow⟩ := freeSlot_spec hlength
      have hassign : Pad.assign p slots = some (put slots p.ident slot) := by
        rw [Pad.assign, hl, hfree]
        rfl
      have hstarted : started p slots = some (p.ident : Int) := by
        rw [started, hl]
        rfl
      rw [hassign, hstarted]
      refine ⟨put slots p.ident slot, slot, rfl, by rw [lookup_put, if_pos rfl],
        h.start hident hslot hbelow x y, fun e he => ?_, fun e he => ?_⟩
      · rw [put, if_neg fun hsome => hident (lookup_isSome_iff.mp hsome)]
        exact List.mem_append_left _ he
      · rcases mem_put he with he | rfl
        · exact .inl he
        · exact .inr rfl

/-- The device shows the point in this slot. -/
def At (d : Device Key) (p : Point) (slot : Nat) : Prop :=
  (d.slots slot).x = p.column ∧ (d.slots slot).y = p.row

/-- Every point is placed, each in a slot of its own. -/
theorem place_spec (h : Held slots d) {points : List Point} {ids : List Nat}
    (hcount : ids.length ≤ 10) (hids : ∀ e ∈ slots, e.1 ∈ ids)
    (hpoints : ∀ p ∈ points, p.ident ∈ ids) (hnodup : (points.map Point.ident).Nodup) :
    ∃ writes slots', Pad.place points slots = some (writes, slots') ∧
      Held slots' (d.replay writes) ∧ .syn ∉ writes ∧ (∀ e ∈ slots, e ∈ slots') ∧
      (∀ e ∈ slots', e ∈ slots ∨ e.1 ∈ points.map Point.ident) ∧
      (∀ p ∈ points, ∃ slot, (p.ident, slot) ∈ slots' ∧ At (d.replay writes) p slot) ∧
      ∀ e ∈ slots, e.1 ∉ points.map Point.ident → (d.replay writes).slots e.2 = d.slots e.2 := by
  -- Each point gets a slot, and the later ones leave it as it is.
  induction points generalizing slots d with
  | nil => exact ⟨[], slots, rfl, h, List.not_mem_nil, fun e he => he, fun e he => .inl he, nofun,
      fun _ _ _ => rfl⟩
  | cons p points ih =>
      obtain ⟨hnot, hnodup⟩ := List.nodup_cons.mp hnodup
      obtain ⟨slots₁, slot, hassign, hslot, hheld, hkept, hnew⟩ :=
        assign_spec h p hcount hids (hpoints p List.mem_cons_self) p.column p.row
      have hmem := mem_of_lookup hslot
      obtain ⟨writes, slots', hplace, hheld', hsyn, hkept', hnew', hat, hframe⟩ :=
        ih hheld (fun e he => by
          rcases hnew e he with he | he
          · exact hids e he
          · rw [he]
            exact hpoints p List.mem_cons_self)
          (fun q hq => hpoints q (List.mem_cons_of_mem _ hq)) hnodup
      refine ⟨Device.touch slot (started p slots) p.column p.row ++ writes, slots', ?_, ?_, ?_,
        fun e he => hkept' e (hkept e he), ?_, ?_, ?_⟩
      · simp only [Pad.place, hassign, hslot, hplace, Option.bind_eq_bind, Option.bind_some]
        rfl
      · rw [Device.replay_append]
        exact hheld'
      · rw [List.mem_append, not_or]
        exact ⟨Device.syn_not_mem_touch _ _ _ _, hsyn⟩
      · intro e he
        rw [List.map_cons, List.mem_cons]
        rcases hnew' e he with he | he
        · exact (hnew e he).imp id .inl
        · exact .inr (.inr he)
      · intro q hq
        rw [Device.replay_append]
        rcases List.mem_cons.mp hq with rfl | hq
        · refine ⟨slot, hkept' _ hmem, ?_⟩
          rw [At, hframe _ hmem hnot, Device.replay_touch, Function.update_self]
          exact ⟨rfl, rfl⟩
        · exact hat q hq
      · intro e he hother
        rw [List.map_cons, List.mem_cons, not_or] at hother
        have hne : (e.2 : Int) ≠ slot := fun heq =>
          hother.1 (congrArg Prod.fst (hheld.slot_inj (hkept e he) hmem (by exact_mod_cast heq)))
        rw [Device.replay_append, hframe e (hkept e he) hother.2, Device.replay_touch,
          Function.update_of_ne hne]

end Loops

/-! ### A frame -/

theorem Held.contact_iff {slots : Slots} {d : Device Key} (h : Held slots d) {slot id x y : Int} :
    d.contact slot = some (id, x, y) ↔
      (∃ e ∈ slots, (e.1 : Int) = id ∧ (e.2 : Int) = slot) ∧
        (d.slots slot).x = x ∧ (d.slots slot).y = y := by
  rw [← h.shown, Device.contact, Option.ite_none_right_eq_some]
  simp only [Option.some.injEq, Prod.mk.injEq]
  constructor
  · rintro ⟨hid, rfl, rfl, rfl⟩
    exact ⟨⟨rfl, hid⟩, rfl, rfl⟩
  · rintro ⟨⟨rfl, hid⟩, rfl, rfl⟩
    exact ⟨hid, rfl, rfl, rfl⟩

/-- Whether a key is pressed, for the number of contacts and the mask of the buttons. -/
def pressed (count mask : Nat) : Key → Bool
  | .btnTouch => 0 < count
  | .btnToolFinger => count = 1
  | .btnToolDoubletap => count = 2
  | .btnToolTripletap => count = 3
  | .btnToolQuadtap => count = 4
  | .btnToolQuinttap => 5 ≤ count
  | .btnLeft => mask.testBit 0
  | .btnRight => mask.testBit 1
  | .btnMiddle => mask.testBit 2

theorem and_shiftLeft_ne_zero (mask bit : Nat) : mask &&& 1 <<< bit ≠ 0 ↔ mask.testBit bit := by
  rw [Nat.one_shiftLeft, Nat.and_two_pow]
  cases mask.testBit bit <;> simp

theorem keys_nodup (f : Frame) : ((Pad.keys f).map Prod.fst).Nodup := by
  have hcodes : (Pad.keys f).map Prod.fst =
      [.btnTouch, .btnToolFinger, .btnToolDoubletap, .btnToolTripletap, .btnToolQuadtap,
        .btnToolQuinttap, .btnLeft, .btnRight, .btnMiddle] := rfl
  rw [hcodes]
  decide

/-- The keys that are written are the ones that are pressed. -/
theorem keys_pressed (f : Frame) (code : Key) :
    (code, if pressed f.points.length f.buttons code then (1 : Int) else 0) ∈ Pad.keys f := by
  have hbutton : ∀ e ∈ [(0, Key.btnLeft), (1, .btnRight), (2, .btnMiddle)],
      (f.buttons &&& 1 <<< e.1 ≠ 0 ↔ pressed f.points.length f.buttons e.2) →
      (e.2, if pressed f.points.length f.buttons e.2 then (1 : Int) else 0) ∈ Pad.keys f := by
    intro e he hpressed
    refine List.mem_append_right _ (List.mem_map.mpr ⟨e, he, ?_⟩)
    simp only [hpressed]
  have hone : min 5 f.points.length = 1 ↔ f.points.length = 1 := by omega
  have htwo : min 5 f.points.length = 2 ↔ f.points.length = 2 := by omega
  have hthree : min 5 f.points.length = 3 ↔ f.points.length = 3 := by omega
  have hfour : min 5 f.points.length = 4 ↔ f.points.length = 4 := by omega
  have hfive : min 5 f.points.length = 5 ↔ 5 ≤ f.points.length := by omega
  cases code with
  | btnTouch =>
      by_cases hnil : f.points = []
      · simp [Pad.keys, hnil, pressed]
      · simp [Pad.keys, hnil, pressed, List.length_pos_iff.mpr hnil]
  | btnToolFinger => simp [Pad.keys, pressed, hone]
  | btnToolDoubletap => simp [Pad.keys, pressed, htwo]
  | btnToolTripletap => simp [Pad.keys, pressed, hthree]
  | btnToolQuadtap => simp [Pad.keys, pressed, hfour]
  | btnToolQuinttap => simp [Pad.keys, pressed, hfive]
  | btnLeft => exact hbutton (0, .btnLeft) (by simp) (and_shiftLeft_ne_zero f.buttons 0)
  | btnRight => exact hbutton (1, .btnRight) (by simp) (and_shiftLeft_ne_zero f.buttons 1)
  | btnMiddle => exact hbutton (2, .btnMiddle) (by simp) (and_shiftLeft_ne_zero f.buttons 2)

theorem replay_pointer (d : Device Key) (points : List Point) :
    (d.replay (Pad.pointer points)).slots = d.slots := by
  cases points with
  | nil => rfl
  | cons p points => exact d.replay_pointer p.column p.row

/-- What the device makes of the writes for a frame: `d` before, `d'` after, and the slots that the
pad then keeps. -/
structure Refines (d : Device Key) (f : Frame) (writes : Writes) (d' : Device Key)
    (slots : Slots) : Prop where
  /-- There is one report, at the end. -/
  report : ∃ body, writes = body ++ [Write.syn] ∧ .syn ∉ body
  /-- It shows the contacts of the frame. -/
  contacts : ∀ id x y, (∃ slot, d'.contact slot = some (id, x, y)) ↔
    ∃ p ∈ f.points, (p.ident : Int) = id ∧ p.column = x ∧ p.row = y
  once : ∀ {slot slot' id x y x' y'}, d'.contact slot = some (id, x, y) →
    d'.contact slot' = some (id, x', y') → slot = slot'
  /-- A contact that stays keeps its slot. -/
  stays : ∀ {slot id x y}, d.contact slot = some (id, x, y) →
    (∃ p ∈ f.points, (p.ident : Int) = id) → ∃ x' y', d'.contact slot = some (id, x', y')
  within : ∀ {slot}, d'.contact slot ≠ none → 0 ≤ slot ∧ slot ≤ 9
  /-- The pad knows the slots, and they are different. -/
  assigned : ∀ id slot : Nat, (id, slot) ∈ slots ↔ ∃ x y, d'.contact slot = some ((id : Int), x, y)
  apart : (slots.map Prod.snd).Nodup
  keys : ∀ code, d'.keys code = if pressed f.points.length f.buttons code then 1 else 0

/-- **A valid frame does not raise, and the device shows it.** -/
theorem frame_spec {pad : Pad} {d : Device Key} {f : Frame} (h : Held pad.slots d) (hf : f.Valid) :
    ∃ writes pad', pad.frame f = some (writes, pad') ∧ Held pad'.slots (d.replay writes) ∧
      Refines d f writes (d.replay writes) pad'.slots := by
  obtain ⟨released, slots₁, hrelease, hheld₁, hsyn₁, hmem₁⟩ :=
    release_spec h (f.points.map Point.ident) h.distinct fun _ hi => hi
  have hids : ∀ e ∈ slots₁, e.1 ∈ f.points.map Point.ident := by
    intro e he
    obtain ⟨hold, hid⟩ := (hmem₁ e).mp he
    exact hid.resolve_right fun hnot => hnot (List.mem_map_of_mem hold)
  obtain ⟨placed, slots₂, hplace, hheld₂, hsyn₂, hkept, hnew, hat, -⟩ :=
    place_spec hheld₁ (by simpa using hf.count) hids (fun p hp => List.mem_map_of_mem hp) hf.distinct
  have hframe : pad.frame f = some (released ++ placed ++ Pad.pointer f.points ++
      ((Pad.keys f).map fun e => .key e.1 e.2) ++ [.syn], ⟨slots₂, f.buttons⟩) := by
    simp only [Pad.frame, hrelease, hplace, Option.bind_eq_bind, Option.bind_some]
    rfl
  refine ⟨_, _, hframe, ?_⟩
  generalize hd : d.replay (released ++ placed ++ Pad.pointer f.points ++
    ((Pad.keys f).map fun e => .key e.1 e.2) ++ [.syn]) = d'
  have hslots : d'.slots = ((d.replay released).replay placed).slots := by
    rw [← hd, Device.replay_syn, Device.replay_append, Device.slots_replay_keys,
      Device.replay_append, replay_pointer, Device.replay_append]
  have hkeys : ∀ code, d'.keys code = if pressed f.points.length f.buttons code then 1 else 0 := by
    intro code
    rw [← hd, Device.replay_syn, Device.replay_append]
    exact Device.replay_key _ (keys_nodup f) (keys_pressed f code)
  have hheld : Held slots₂ d' := hheld₂.of_slots hslots
  have hshown : ∀ p ∈ f.points, ∃ slot : Nat, (p.ident, slot) ∈ slots₂ ∧
      d'.contact slot = some ((p.ident : Int), p.column, p.row) := by
    intro p hp
    obtain ⟨slot, hmem, hx, hy⟩ := hat p hp
    refine ⟨slot, hmem, hheld.contact_iff.mpr ⟨⟨_, hmem, rfl, rfl⟩, ?_, ?_⟩⟩
    · rw [hslots, hx]
    · rw [hslots, hy]
  have hof : ∀ e ∈ slots₂, e.1 ∈ f.points.map Point.ident := by
    intro e he
    rcases hnew e he with he | he
    · exact hids e he
    · exact he
  refine ⟨hheld, ⟨_, rfl, ?_⟩, ?_, ?_, ?_, ?_, ?_, hheld.apart, hkeys⟩
  · simp only [List.mem_append, not_or]
    refine ⟨⟨⟨hsyn₁, hsyn₂⟩, ?_⟩, by simp⟩
    cases f.points <;> simp [Pad.pointer]
  · intro id x y
    constructor
    · rintro ⟨slot, hcontact⟩
      obtain ⟨⟨e, he, rfl, rfl⟩, hx, hy⟩ := hheld.contact_iff.mp hcontact
      obtain ⟨p, hp, hident⟩ := List.mem_map.mp (hof e he)
      obtain ⟨slot, hmem, hcontact'⟩ := hshown p hp
      -- An identity has one slot.
      obtain rfl := hheld.ident_inj he hmem hident.symm
      rw [hcontact] at hcontact'
      cases hcontact'
      exact ⟨p, hp, rfl, rfl, rfl⟩
    · rintro ⟨p, hp, rfl, rfl, rfl⟩
      obtain ⟨slot, -, hcontact⟩ := hshown p hp
      exact ⟨slot, hcontact⟩
  · intro slot slot' id x y x' y' hc hc'
    obtain ⟨⟨e, he, hid, rfl⟩, -⟩ := hheld.contact_iff.mp hc
    obtain ⟨⟨e', he', hid', rfl⟩, -⟩ := hheld.contact_iff.mp hc'
    rw [hheld.ident_inj he he' (by exact_mod_cast hid.trans hid'.symm)]
  · rintro slot id x y hc ⟨p, hp, rfl⟩
    obtain ⟨⟨e, he, hid, rfl⟩, -⟩ := h.contact_iff.mp hc
    have hident : e.1 = p.ident := by exact_mod_cast hid
    have hstays := hkept e ((hmem₁ e).mpr ⟨he, .inl (hident ▸ List.mem_map_of_mem hp)⟩)
    exact ⟨_, _, hheld.contact_iff.mpr ⟨⟨e, hstays, hid, rfl⟩, rfl, rfl⟩⟩
  · intro slot hc
    obtain ⟨⟨id, x, y⟩, hc⟩ := Option.ne_none_iff_exists'.mp hc
    obtain ⟨⟨e, he, -, rfl⟩, -⟩ := hheld.contact_iff.mp hc
    have hbelow := hheld.below e he
    omega
  · intro id slot
    constructor
    · intro hmem
      exact ⟨_, _, hheld.contact_iff.mpr ⟨⟨_, hmem, rfl, rfl⟩, rfl, rfl⟩⟩
    · rintro ⟨x, y, hc⟩
      obtain ⟨⟨e, he, hid, hslot⟩, -⟩ := hheld.contact_iff.mp hc
      have heq : e = (id, slot) := Prod.ext (by exact_mod_cast hid) (by exact_mod_cast hslot)
      exact heq ▸ he

/-! ### Runs -/

/-- The device after what was written for the frames so far. -/
def device (t : List (Frame × Writes)) : Device Key := Device.new.replay (t.flatMap Prod.snd)

theorem device_append (t : List (Frame × Writes)) (f : Frame) (writes : Writes) :
    device (t ++ [(f, writes)]) = (device t).replay writes := by
  simp [device, List.flatMap_append, Device.replay_append]

/-- A run of valid frames: the pad knows what the device holds. -/
theorem run_held {t : List (Frame × Writes)} {pad : Pad} (h : Pad.Run .new t pad)
    (hvalid : ∀ e ∈ t, e.1.Valid) : Held pad.slots (device t) := by
  have hinv := Steps.invariant_trace
    (I := fun (pad : Pad) t => (∀ e ∈ t, e.1.Valid) → Held pad.slots (device t)) (u := [])
    (fun {pad t f writes pad'} hI hframe hvalid => by
      have hf : f.Valid := hvalid (f, writes) (by simp)
      have hheld := hI fun e he => hvalid e (List.mem_append_left _ he)
      obtain ⟨writes', pad₁, hframe', hheld', -⟩ := frame_spec hheld hf
      cases hframe.symm.trans hframe'
      rw [device_append]
      exact hheld') h fun _ => held_new
  exact hinv hvalid

/-- Valid frames do not raise. -/
theorem play_total {frames : List Frame} (hvalid : ∀ f ∈ frames, f.Valid) {pad : Pad}
    {d : Device Key} (h : Held pad.slots d) :
    ∃ t pad', play Pad.frame pad frames = some (t, pad') := by
  induction frames generalizing pad d with
  | nil => exact ⟨[], pad, rfl⟩
  | cons f frames ih =>
      obtain ⟨writes, pad₁, hframe, hheld, -⟩ := frame_spec h (hvalid f List.mem_cons_self)
      obtain ⟨t, pad', hplay⟩ := ih (fun f hf => hvalid f (List.mem_cons_of_mem _ hf)) hheld
      refine ⟨(f, writes) :: t, pad', ?_⟩
      simp only [play, hframe, Option.bind_some, hplay, Option.map_some]

theorem mapM_valid {values : List Value} {frames : List Frame}
    (h : values.mapM validate = .ok frames) : ∀ f ∈ frames, f.Valid := by
  induction values generalizing frames with
  | nil =>
      cases h
      exact nofun
  | cons v values ih =>
      rw [List.mapM_cons] at h
      obtain ⟨f, hf, h⟩ := except_bind_eq_ok.mp h
      obtain ⟨rest, hrest, h⟩ := except_bind_eq_ok.mp h
      cases h
      rw [List.forall_mem_cons]
      exact ⟨validate_valid hf, ih hrest⟩

/-- **Touch frames refine the type-B protocol.**  For every sequence of accepted frames, no call of
`frame` raises, so there is always a free slot; and after each frame, the writes so far have made the
device show the contacts of this frame and its keys, each contact that stays in the slot it had. -/
theorem frames_refine {values : List Value} {frames : List Frame}
    (h : values.mapM validate = .ok frames) :
    ∃ t pad, play Pad.frame .new frames = some (t, pad) ∧
      ∀ u f writes v, t = u ++ (f, writes) :: v →
        ∃ m m', Pad.Run .new u m ∧ m.frame f = some (writes, m') ∧
          Refines (device u) f writes (device (u ++ [(f, writes)])) m'.slots := by
  have hvalid := mapM_valid h
  obtain ⟨t, pad, hplay⟩ := play_total hvalid held_new
  refine ⟨t, pad, hplay, ?_⟩
  rintro u f writes v rfl
  have hevents := play_events hplay
  have hall : ∀ e ∈ u ++ (f, writes) :: v, e.1.Valid := fun e he =>
    hvalid e.1 (hevents ▸ List.mem_map_of_mem he)
  obtain ⟨m, m', hu, hframe, -⟩ := (Steps.of_play hplay).split_at
  have hheld := run_held hu fun e he => hall e (List.mem_append_left _ he)
  obtain ⟨writes', m₁, hframe', -, hrefines⟩ := frame_spec hheld (hall (f, writes) (by simp))
  cases hframe.symm.trans hframe'
  refine ⟨m, m', hu, hframe, ?_⟩
  rw [device_append]
  exact hrefines

/-- Two contacts, of which the second one stays. -/
def sampleValues : List Value :=
  [.dict [("touches", .list [.list [.int 1, .float (some (1 / 5)), .float (some (3 / 10))],
      .list [.int 2, .float (some (3 / 5)), .float (some (7 / 10))]])],
    .dict [("touches", .list [.list [.int 2, .float (some (1 / 2)), .int 1]]),
      ("buttons", .int 1)]]

def sampleFrames : List Frame :=
  [⟨[⟨1, 1 / 5, 3 / 10⟩, ⟨2, 3 / 5, 7 / 10⟩], 0⟩, ⟨[⟨2, 1 / 2, 1⟩], 1⟩]

theorem frames_refine_sample :
    sampleValues.mapM validate = .ok sampleFrames ∧
      (play Pad.frame .new sampleFrames).map (·.2.slots) = some [(2, 1)] ∧
      ∃ t pad, play Pad.frame .new sampleFrames = some (t, pad) ∧
        ∀ u f writes v, t = u ++ (f, writes) :: v →
          ∃ m m', Pad.Run .new u m ∧ m.frame f = some (writes, m') ∧
            Refines (device u) f writes (device (u ++ [(f, writes)])) m'.slots := by
  have hvalues : sampleValues.mapM validate = .ok sampleFrames := by decide +kernel
  exact ⟨hvalues, by decide +kernel, frames_refine hvalues⟩

end Ashacky.Input
