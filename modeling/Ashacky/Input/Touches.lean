import Ashacky.Input.Contacts
import Mathlib.Data.Nat.Bitwise

/-!
# Input — Touches

The touches of `GuestView` in `host/frontend/main.m`: each event of the trackpad becomes a frame for the
guest, in which a touch has a number that it keeps while it lasts.

The numbers are drawn from a counter, and nothing sees to it that the next one is not in use.

* `gather_spec`: the points of an event, and the numbers that are known after it.
* `Clear`: no number that an event draws is that of a touch it goes on with.
* `idents_nodup_iff`: then, and only then, the numbers of its points are distinct.
* `frames_accepted`: in a run of such events the guest accepts every frame.
* `ident_taken`: a touch is held while 65536 others come and go; the next has its number.
-/

namespace Ashacky.Input
open Ashacky.Support

/-! ### The view -/

/-- A touch. -/
structure Touch (ι : Type) where
  /-- What tells it from others while it lasts. -/
  identity : ι
  /-- `NSTouchTypeIndirect`. -/
  indirect : Bool
  /-- `normalizedPosition`. -/
  x : ℚ
  y : ℚ
  within : (0 ≤ x ∧ x ≤ 1) ∧ 0 ≤ y ∧ y ≤ 1

/-- `touchesMatchingPhase:inView:`, in the order they are gone through. -/
structure Touches (ι : Type) where
  all : List (Touch ι)
  distinct : (all.map Touch.identity).Nodup

/-- The fields of the view that concern touches; the numbers are `unsigned`. -/
structure GuestView (ι : Type) where
  touchIDs : List (ι × Nat)
  touchPoints : List Point
  touchButtons : Nat
  nextTouchID : Nat

namespace GuestView

variable {ι : Type} [DecidableEq ι]

def new : GuestView ι := ⟨[], [], 0, 0⟩

/-- The number of a touch; a new one has the next. -/
def identify (v : GuestView ι) (identity : ι) : Nat × GuestView ι :=
  match v.touchIDs.lookup identity with
  | some ident => (ident, v)
  | none =>
      (v.nextTouchID % 65536, { v with
        touchIDs := put v.touchIDs identity (v.nextTouchID % 65536)
        nextTouchID := (v.nextTouchID + 1) % 2 ^ 32 })

/-- The loop over the touches. -/
def gather : List (Touch ι) → List Point → List ι → GuestView ι → List Point × List ι × GuestView ι
  | [], points, active, v => (points, active, v)
  | touch :: touches, points, active, v =>
      if !touch.indirect ∨ 10 ≤ points.length then gather touches points active v
      else
        gather touches (points ++ [⟨(v.identify touch.identity).1, touch.x, 1 - touch.y⟩])
          (active ++ [touch.identity]) (v.identify touch.identity).2

/-- `sendTouches`, if the port is open. -/
def sendTouches (v : GuestView ι) (isOpen : Bool) : List Frame :=
  if isOpen then [⟨v.touchPoints, v.touchButtons⟩] else []

/-- `resetTouches`. -/
def resetTouches (v : GuestView ι) (isOpen : Bool) : List Frame × GuestView ι :=
  let v := { v with touchPoints := [], touchButtons := 0, touchIDs := [] }
  (v.sendTouches isOpen, v)

/-- `touches:`; the view is ready if the application is active and its window has the keys. -/
def touches (v : GuestView ι) (ready isOpen : Bool) (t : Touches ι) : List Frame × GuestView ι :=
  if !ready ∨ !isOpen then v.resetTouches isOpen
  else
    let r := gather t.all [] [] v
    let v := { r.2.2 with
      touchIDs := r.2.2.touchIDs.filter fun e => e.1 ∈ r.2.1
      touchPoints := r.1 }
    (v.sendTouches isOpen, v)

/-- `button:down:`, for one of the first three buttons, while the touches are native. -/
def button (v : GuestView ι) (number : Fin 3) (down isOpen : Bool) : List Frame × GuestView ι :=
  let bit := 1 <<< number.val
  let v := { v with
    touchButtons := if down then v.touchButtons ||| bit else Nat.ldiff v.touchButtons bit }
  (v.sendTouches isOpen, v)

end GuestView

inductive TouchEvent (ι : Type) where
  | touches (ready isOpen : Bool) (t : Touches ι)
  /-- Whatever resets the touches: they are cancelled, keys are released, the port is closed. -/
  | reset (isOpen : Bool)
  | button (number : Fin 3) (down isOpen : Bool)
  /-- The timer sends the touches again. -/
  | resend (isOpen : Bool)

namespace GuestView

variable {ι : Type} [DecidableEq ι]

/-- A step of the view, with the frames it sends. -/
def step (v : GuestView ι) : TouchEvent ι → List Frame × GuestView ι
  | .touches ready isOpen t => v.touches ready isOpen t
  | .reset isOpen => v.resetTouches isOpen
  | .button number down isOpen => v.button number down isOpen
  | .resend isOpen => (v.sendTouches isOpen, v)

end GuestView

/-- What the guest reads of a frame; `wire` is what becomes of a number. -/
def Frame.value (wire : ℚ → Value) (f : Frame) : Value :=
  .dict [("touches", .list (f.points.map fun p => .list [.int p.ident, wire p.x, wire p.y])),
    ("buttons", .int f.buttons)]

/-! ### What the guest makes of a frame -/

/-- A number is read back as it was. -/
def Exact (wire : ℚ → Value) : Prop := ∀ x, wire x = .float (some x) ∨ ∃ n : Int, x = n ∧ wire x = .int n

/-- What a frame has to be. -/
structure Frame.Proper (f : Frame) : Prop extends Frame.Valid f where
  below : ∀ p ∈ f.points, p.ident < 65536
  within : ∀ p ∈ f.points, (0 ≤ p.x ∧ p.x ≤ 1) ∧ 0 ≤ p.y ∧ p.y ≤ 1
  pressed : f.buttons ≤ 7

section Wire
variable {wire : ℚ → Value}

/-- A coordinate of the unit square is read back as it was. -/
theorem coordinate_wire (hwire : Exact wire) {x : ℚ} (hx : 0 ≤ x ∧ x ≤ 1) :
    coordinate (wire x) = some x := by
  rcases hwire x with hfloat | ⟨n, rfl, hint⟩
  · rw [hfloat, coordinate, if_pos hx]
  · rw [hint, coordinate, if_pos ⟨by exact_mod_cast hx.1, by exact_mod_cast hx.2⟩]

/-- A number that is new and has 16 bits is taken. -/
theorem identity_int {seen : List Nat} {ident : Nat} (hbelow : ident < 65536) (hseen : ident ∉ seen) :
    identity seen (.int ident) = some ident := by
  have hcond : 0 ≤ (ident : Int) ∧ (ident : Int) < 65536 ∧ (ident : Int).toNat ∉ seen :=
    ⟨Int.natCast_nonneg _, by exact_mod_cast hbelow, by rwa [Int.toNat_natCast]⟩
  rw [identity, if_pos hcond, Int.toNat_natCast]

/-- Points with distinct numbers inside the unit square are read back as they were. -/
theorem validatePoints_value (hwire : Exact wire) {points : List Point} (seen : List Nat)
    (hdistinct : (points.map Point.ident).Nodup) (hseen : ∀ p ∈ points, p.ident ∉ seen)
    (hbelow : ∀ p ∈ points, p.ident < 65536)
    (hwithin : ∀ p ∈ points, (0 ≤ p.x ∧ p.x ≤ 1) ∧ 0 ≤ p.y ∧ p.y ≤ 1) :
    validatePoints seen (points.map fun p => .list [.int p.ident, wire p.x, wire p.y]) = .ok points := by
  induction points generalizing seen with
  | nil => rfl
  | cons p points ih =>
      rw [List.map_cons, List.nodup_cons] at hdistinct
      rw [List.forall_mem_cons] at hseen hbelow hwithin
      have hpoint : validatePoint seen (.list [.int p.ident, wire p.x, wire p.y]) = .ok p := by
        rw [validatePoint, identity_int hbelow.1 hseen.1, coordinate_wire hwire hwithin.1.1,
          coordinate_wire hwire hwithin.1.2]
      have hrest := ih (p.ident :: seen) hdistinct.2 (fun q hq => ?_) hbelow.2 hwithin.2
      · rw [List.map_cons, validatePoints]
        exact except_bind_eq_ok.mpr ⟨p, hpoint, except_bind_eq_ok.mpr ⟨points, hrest, rfl⟩⟩
      · rw [List.mem_cons, not_or]
        refine ⟨fun heq => hdistinct.1 ?_, hseen.2 q hq⟩
        exact heq ▸ List.mem_map_of_mem hq

/-- A bad point fails the list. -/
theorem validatePoints_now {seen : List Nat} {p : Value} {rest : List Value} {error : String}
    (h : validatePoint seen p = .error error) : validatePoints seen (p :: rest) = .error error := by
  rw [validatePoints, h]
  rfl

theorem validatePoints_later {seen : List Nat} {p : Value} {point : Point} {rest : List Value}
    {error : String} (hpoint : validatePoint seen p = .ok point)
    (hrest : validatePoints (point.ident :: seen) rest = .error error) :
    validatePoints seen (p :: rest) = .error error := by
  rw [validatePoints, hpoint]
  change (validatePoints (point.ident :: seen) rest >>= _) = _
  rw [hrest]
  rfl

/-- **What is proper is accepted.** -/
theorem validate_value (hwire : Exact wire) {f : Frame} (h : f.Proper) : validate (f.value wire) = .ok f := by
  have hpoints := validatePoints_value hwire [] h.distinct (fun _ _ => List.not_mem_nil)
    h.below h.within
  have hbuttons : validateButtons (.int f.buttons) = .ok f.buttons := by
    rw [validateButtons, if_pos ⟨by omega, by exact_mod_cast h.pressed⟩, Int.toNat_natCast]
  have hcount : ¬ (f.points.map fun p => Value.list [.int p.ident, wire p.x, wire p.y]).length > 10 := by
    rw [List.length_map]
    exact h.count.not_gt
  refine (if_neg hcount).trans ?_
  exact except_bind_eq_ok.mpr ⟨_, hpoints, except_bind_eq_ok.mpr ⟨_, hbuttons, rfl⟩⟩

end Wire

/-! ### The numbers of an event -/

variable {ι : Type} [DecidableEq ι]

/-- The touches that an event sends. -/
def Touches.sent (t : Touches ι) : List (Touch ι) := (t.all.filter (·.indirect)).take 10

omit [DecidableEq ι] in
/-- No touch is sent twice in a frame. -/
theorem Touches.sent_nodup (t : Touches ι) : (t.sent.map Touch.identity).Nodup :=
  (((List.take_sublist _ _).trans List.filter_sublist).map _).nodup t.distinct

/-- The numbers of these touches, when the counter is at `next`. -/
def idents (ids : List (ι × Nat)) : Nat → List ι → List Nat
  | _, [] => []
  | next, a :: as =>
      match ids.lookup a with
      | some ident => ident :: idents ids next as
      | none => next % 65536 :: idents ids ((next + 1) % 2 ^ 32) as

section Numbers
variable {ids ids' : List (ι × Nat)} {next : Nat} {as : List ι}

/-- Each touch has a number. -/
theorem idents_length (ids : List (ι × Nat)) (next : Nat) (as : List ι) :
    (idents ids next as).length = as.length := by
  induction as generalizing next with
  | nil => rfl
  | cons a as ih =>
      rw [idents]
      split <;> simp [ih]

/-- The numbers depend on those that the touches have, and on the counter. -/
theorem idents_congr (h : ∀ a ∈ as, ids.lookup a = ids'.lookup a) :
    idents ids next as = idents ids' next as := by
  induction as generalizing next with
  | nil => rfl
  | cons a as ih =>
      rw [List.forall_mem_cons] at h
      simp only [idents, h.1, ih h.2]

/-- A number that is known is kept. -/
theorem idents_lookup {a : ι} {ident : Nat} (ha : a ∈ as) (h : ids.lookup a = some ident) :
    (as.zip (idents ids next as)).lookup a = some ident := by
  induction as generalizing next with
  | nil => cases ha
  | cons b as ih =>
      by_cases hab : a = b
      · subst hab
        rw [idents, h]
        simp
      · have hne : (a == b) = false := by simpa using hab
        have hmem := (List.mem_cons.mp ha).resolve_left hab
        rw [idents]
        split
        · rw [List.zip_cons_cons, List.lookup_cons, hne]
          exact ih hmem
        · rw [List.zip_cons_cons, List.lookup_cons, hne]
          exact ih hmem

/-- How many numbers are drawn. -/
def drawn (ids : List (ι × Nat)) (as : List ι) : Nat := as.countP fun a => (ids.lookup a).isNone

/-- The numbers are those that are known, and the next ones of the counter. -/
theorem idents_perm (ids : List (ι × Nat)) (next : Nat) (as : List ι) :
    (idents ids next as).Perm
      (as.filterMap (fun a => ids.lookup a) ++ (List.range (drawn ids as)).map fun k => (next + k) % 65536) := by
  induction as generalizing next with
  | nil => exact .nil
  | cons a as ih =>
      rw [idents]
      split
      · next ident hknown =>
          have hdrawn : drawn ids (a :: as) = drawn ids as := by simp [drawn, hknown]
          rw [List.filterMap_cons_some (f := fun a => ids.lookup a) hknown, hdrawn]
          exact (ih next).cons _
      · next hnew =>
          have hdrawn : drawn ids (a :: as) = drawn ids as + 1 := by simp [drawn, hnew]
          have hshift : (List.range (drawn ids as + 1)).map (fun k => (next + k) % 65536) =
              next % 65536 :: (List.range (drawn ids as)).map fun k => ((next + 1) % 2 ^ 32 + k) % 65536 := by
            rw [List.range_succ_eq_map, List.map_cons, List.map_map]
            refine congrArg _ (List.map_congr_left fun k _ => ?_)
            simp only [Function.comp_apply]
            omega
          rw [List.filterMap_cons_none (f := fun a => ids.lookup a) hnew, hdrawn, hshift]
          exact ((ih _).cons _).trans List.perm_middle.symm

end Numbers

/-! ### The points of an event -/

namespace GuestView

/-- The numbers of the touches that an event sends. -/
def numbers (v : GuestView ι) (t : Touches ι) : List Nat :=
  idents v.touchIDs v.nextTouchID (t.sent.map Touch.identity)

/-- Each touch that is sent has a number. -/
theorem numbers_length (v : GuestView ι) (t : Touches ι) :
    (v.numbers t).length = (t.sent.map Touch.identity).length :=
  idents_length _ _ _

/-- The point of a touch. -/
def point (ident : Nat) (touch : Touch ι) : Point := ⟨ident, touch.x, 1 - touch.y⟩

omit [DecidableEq ι] in
/-- The points carry the numbers they are made with. -/
theorem map_ident_points {nums : List Nat} {sent : List (Touch ι)} (h : nums.length = sent.length) :
    (List.zipWith point nums sent).map Point.ident = nums := by
  rw [List.map_zipWith]
  change List.zipWith (fun ident _ => ident) nums sent = nums
  rw [← List.map_uncurry_zip_eq_zipWith]
  exact List.map_fst_zip h.le

/-- What stands in the list has a number beside it. -/
theorem lookup_zip_of_mem {as : List ι} {nums : List Nat} {a : ι} (hlength : nums.length = as.length)
    (ha : a ∈ as) : ∃ ident, (as.zip nums).lookup a = some ident := by
  rw [← Option.isSome_iff_exists, lookup_isSome_iff, List.map_fst_zip hlength.ge]
  exact ha

/-- What does not stand in the list has none. -/
theorem lookup_zip_of_notMem {as : List ι} {nums : List Nat} {a : ι} (ha : a ∉ as) :
    (as.zip nums).lookup a = none := by
  rw [← Option.not_isSome_iff_eq_none, lookup_isSome_iff]
  intro hmem
  obtain ⟨e, he, rfl⟩ := List.mem_map.mp hmem
  exact ha (List.of_mem_zip he).1

/-- Numbering a touch leaves the numbers of the others. -/
theorem lookup_identify (v : GuestView ι) (a b : ι) :
    (v.identify a).2.touchIDs.lookup b =
      if b = a then some (v.identify a).1 else v.touchIDs.lookup b := by
  rw [identify]
  split
  · next ident hknown =>
      split
      · next heq => rw [heq, hknown]
      · rfl
  · exact lookup_put _ _ _ _

/-- The numbers of a list are drawn one after the other. -/
theorem idents_identify (v : GuestView ι) {a : ι} {as : List ι} (ha : a ∉ as) :
    idents v.touchIDs v.nextTouchID (a :: as) =
      (v.identify a).1 :: idents (v.identify a).2.touchIDs (v.identify a).2.nextTouchID as := by
  have hrest : ∀ b ∈ as, (v.identify a).2.touchIDs.lookup b = v.touchIDs.lookup b := by
    intro b hb
    rw [lookup_identify, if_neg (ne_of_mem_of_not_mem hb ha)]
  rw [idents_congr hrest, idents, identify]
  split <;> rfl

/-- Numbering a touch leaves the buttons. -/
theorem identify_touchButtons (v : GuestView ι) (a : ι) :
    (v.identify a).2.touchButtons = v.touchButtons := by
  rw [identify]
  split <;> rfl

/-- The loop over the touches: the points, the touches that have one, and the numbers known then. -/
theorem gather_spec {touches : List (Touch ι)} (hnodup : (touches.map Touch.identity).Nodup)
    (points : List Point) (active : List ι) (v : GuestView ι) :
    let sent := (touches.filter (·.indirect)).take (10 - points.length)
    let nums := idents v.touchIDs v.nextTouchID (sent.map Touch.identity)
    let r := gather touches points active v
    r.1 = points ++ List.zipWith point nums sent ∧ r.2.1 = active ++ sent.map Touch.identity ∧
      r.2.2.touchButtons = v.touchButtons ∧
      ∀ a, r.2.2.touchIDs.lookup a =
        (((sent.map Touch.identity).zip nums).lookup a).or (v.touchIDs.lookup a) := by
  -- Each touch that is sent takes one of the ten places, and the number it has or the next one.
  induction touches generalizing points active v with
  | nil => simp [gather, idents]
  | cons touch touches ih =>
      obtain ⟨hnotMem, hnodup⟩ := List.nodup_cons.mp hnodup
      rw [gather]
      split
      · next hskip =>
          have hsent : ((touch :: touches).filter (·.indirect)).take (10 - points.length) =
              (touches.filter (·.indirect)).take (10 - points.length) := by
            rcases hskip with hindirect | hfull
            · rw [List.filter_cons_of_neg (by simpa using hindirect)]
            · rw [Nat.sub_eq_zero_of_le hfull, List.take_zero, List.take_zero]
          rw [hsent]
          exact ih hnodup points active v
      · next hkeep =>
          obtain ⟨hindirect, hroom⟩ := not_or.mp hkeep
          have hsent : ((touch :: touches).filter (·.indirect)).take (10 - points.length) =
              touch :: (touches.filter (·.indirect)).take (10 - (points.length + 1)) := by
            rw [List.filter_cons_of_pos (by simpa using hindirect),
              show 10 - points.length = (10 - (points.length + 1)) + 1 by omega, List.take_succ_cons]
          have hrest : touch.identity ∉
              ((touches.filter (·.indirect)).take (10 - (points.length + 1))).map Touch.identity :=
            fun hmem => hnotMem ((((List.take_sublist _ _).trans List.filter_sublist).map _).subset hmem)
          have hlater := ih hnodup (points ++ [point (v.identify touch.identity).1 touch])
            (active ++ [touch.identity]) (v.identify touch.identity).2
          rw [List.length_append, List.length_singleton] at hlater
          obtain ⟨hpoints, hactive, hbuttons, hknown⟩ := hlater
          intro sent nums r
          simp only [sent, nums, hsent, List.map_cons, idents_identify v hrest, List.zipWith_cons_cons,
            List.zip_cons_cons]
          refine ⟨?_, ?_, hbuttons.trans (identify_touchButtons v _), fun a => ?_⟩
          · exact hpoints.trans (List.append_assoc _ _ _)
          · exact hactive.trans (List.append_assoc _ _ _)
          · refine (hknown a).trans ?_
            rw [lookup_identify, List.lookup_cons]
            by_cases ha : a = touch.identity
            · -- It is not among the later ones.
              subst ha
              rw [beq_self_eq_true, if_pos rfl, lookup_zip_of_notMem hrest]
              rfl
            · have hne : (a == touch.identity) = false := by simpa using ha
              rw [hne, if_neg ha]

/-- What an event leaves, and what it sends: its points, and the numbers of these alone. -/
theorem touches_spec (v : GuestView ι) (t : Touches ι) :
    let points := List.zipWith point (v.numbers t) t.sent
    (v.touches true true t).1 = [⟨points, v.touchButtons⟩] ∧
      (v.touches true true t).2.touchPoints = points ∧
      (v.touches true true t).2.touchButtons = v.touchButtons ∧
      ∀ a, (v.touches true true t).2.touchIDs.lookup a =
        ((t.sent.map Touch.identity).zip (v.numbers t)).lookup a := by
  obtain ⟨hpoints, hactive, hbuttons, hknown⟩ := gather_spec t.distinct [] [] v
  rw [touches, if_neg (by simp)]
  refine ⟨?_, hpoints, hbuttons, fun a => ?_⟩
  · simp only [sendTouches, if_true]
    exact congrArg₂ (fun points buttons => [Frame.mk points buttons]) hpoints hbuttons
  · refine (lookup_filter_key _ (fun a => decide (a ∈ (gather t.all [] [] v).2.1)) a).trans ?_
    rw [hknown, hactive]
    change (if decide (a ∈ t.sent.map Touch.identity) then
      (((t.sent.map Touch.identity).zip (v.numbers t)).lookup a).or (v.touchIDs.lookup a) else none) =
        ((t.sent.map Touch.identity).zip (v.numbers t)).lookup a
    by_cases ha : a ∈ t.sent.map Touch.identity
    · obtain ⟨ident, hident⟩ :=
        lookup_zip_of_mem (v.numbers_length t) ha
      rw [if_pos (decide_eq_true ha), hident]
      rfl
    · rw [if_neg (by simpa using ha), lookup_zip_of_notMem ha]

/-! ### Distinct numbers -/

/-- No number that is drawn for the event is that of a touch it goes on with. -/
def Clear (v : GuestView ι) (t : Touches ι) : Prop :=
  ∀ touch ∈ t.sent, ∀ k < drawn v.touchIDs (t.sent.map Touch.identity),
    v.touchIDs.lookup touch.identity ≠ some ((v.nextTouchID + k) % 65536)

instance (v : GuestView ι) (t : Touches ι) : Decidable (v.Clear t) :=
  inferInstanceAs (Decidable (∀ touch ∈ t.sent, ∀ k < drawn v.touchIDs (t.sent.map Touch.identity),
    v.touchIDs.lookup touch.identity ≠ some ((v.nextTouchID + k) % 65536)))

/-- What holds of the view while its events are clear. -/
structure Sound (v : GuestView ι) : Prop where
  apart : ∀ {a b ident}, v.touchIDs.lookup a = some ident → v.touchIDs.lookup b = some ident → a = b
  below : ∀ {a ident}, v.touchIDs.lookup a = some ident → ident < 65536
  frame : Frame.Proper ⟨v.touchPoints, v.touchButtons⟩

/-- An event draws at most ten numbers. -/
theorem drawn_le (v : GuestView ι) (t : Touches ι) :
    drawn v.touchIDs (t.sent.map Touch.identity) ≤ 10 := by
  refine List.countP_le_length.trans ?_
  rw [List.length_map, Touches.sent, List.length_take]
  exact Nat.min_le_left _ _

/-- **The numbers of an event are distinct if, and only if, it is clear.** -/
theorem numbers_nodup_iff {v : GuestView ι} (h : v.Sound) (t : Touches ι) :
    (v.numbers t).Nodup ↔ v.Clear t := by
  have hold : ((t.sent.map Touch.identity).filterMap fun a => v.touchIDs.lookup a).Nodup :=
    t.sent_nodup.filterMap fun a b ident ha hb => h.apart ha hb
  have hnew : ((List.range (drawn v.touchIDs (t.sent.map Touch.identity))).map
      fun k => (v.nextTouchID + k) % 65536).Nodup := by
    refine List.nodup_range.map_on fun i hi j hj heq => ?_
    have hle := v.drawn_le t
    rw [List.mem_range] at hi hj
    omega
  rw [numbers, (idents_perm _ _ _).nodup_iff, List.nodup_append]
  constructor
  · rintro ⟨-, -, hapart⟩ touch htouch k hk hlookup
    refine hapart _ ?_ _ (List.mem_map.mpr ⟨k, List.mem_range.mpr hk, rfl⟩) rfl
    exact List.mem_filterMap.mpr ⟨_, List.mem_map_of_mem htouch, hlookup⟩
  · intro hclear
    refine ⟨hold, hnew, fun ident hident other hother heq => ?_⟩
    obtain ⟨a, ha, hlookup⟩ := List.mem_filterMap.mp hident
    obtain ⟨touch, htouch, rfl⟩ := List.mem_map.mp ha
    obtain ⟨k, hk, rfl⟩ := List.mem_map.mp hother
    exact hclear touch htouch k (List.mem_range.mp hk) (heq ▸ hlookup)

/-- The numbers have 16 bits. -/
theorem numbers_below {v : GuestView ι} (h : v.Sound) (t : Touches ι) {ident : Nat}
    (hident : ident ∈ v.numbers t) : ident < 65536 := by
  rcases List.mem_append.mp ((idents_perm _ _ _).subset hident) with hold | hnew
  · obtain ⟨a, -, hlookup⟩ := List.mem_filterMap.mp hold
    exact h.below hlookup
  · obtain ⟨k, -, rfl⟩ := List.mem_map.mp hnew
    exact Nat.mod_lt _ (by decide)

/-- The points of a frame carry the numbers of its touches. -/
theorem points_ident (v : GuestView ι) (t : Touches ι) :
    (List.zipWith point (v.numbers t) t.sent).map Point.ident = v.numbers t :=
  map_ident_points ((v.numbers_length t).trans (List.length_map _))

/-- Clear touches keep the view sound. -/
theorem touches_sound {v : GuestView ι} (h : v.Sound) {t : Touches ι} (hclear : v.Clear t) :
    (v.touches true true t).2.Sound := by
  obtain ⟨-, hpoints, hbuttons, hknown⟩ := v.touches_spec t
  have hnodup := (numbers_nodup_iff h t).mpr hclear
  have hsnd : ((t.sent.map Touch.identity).zip (v.numbers t)).map Prod.snd = v.numbers t :=
    List.map_snd_zip (v.numbers_length t).le
  have hmem : ∀ p ∈ List.zipWith point (v.numbers t) t.sent, p.ident ∈ v.numbers t ∧
      ∃ touch ∈ t.sent, p.x = touch.x ∧ p.y = 1 - touch.y := by
    intro p hp
    rw [← List.map_uncurry_zip_eq_zipWith] at hp
    obtain ⟨⟨ident, touch⟩, he, rfl⟩ := List.mem_map.mp hp
    exact ⟨(List.of_mem_zip he).1, touch, (List.of_mem_zip he).2, rfl, rfl⟩
  constructor
  · intro a b ident ha hb
    rw [hknown] at ha hb
    rw [← hsnd] at hnodup
    exact (Prod.ext_iff.mp (List.inj_on_of_nodup_map hnodup (mem_of_lookup ha) (mem_of_lookup hb) rfl)).1
  · intro a ident ha
    rw [hknown] at ha
    exact numbers_below h t (List.of_mem_zip (mem_of_lookup ha)).2
  · rw [hpoints, hbuttons]
    refine ⟨⟨?_, ?_⟩, fun p hp => numbers_below h t (hmem p hp).1, fun p hp => ?_, h.frame.pressed⟩
    · rw [List.length_zipWith]
      refine (Nat.min_le_right _ _).trans ?_
      rw [Touches.sent, List.length_take]
      exact Nat.min_le_left _ _
    · simp only [points_ident]
      exact hnodup
    · obtain ⟨-, touch, -, hx, hy⟩ := hmem p hp
      rw [hx, hy]
      refine ⟨touch.within.1, ?_, ?_⟩ <;> linarith [touch.within.2.1, touch.within.2.2]

end GuestView

/-! ### Runs of the view -/

/-- Whether the numbers that the event draws are free. -/
def TouchEvent.Clear (v : GuestView ι) : TouchEvent ι → Prop
  | .touches true true t => v.Clear t
  | _ => True

/-- Buttons, and touches that are sent again. -/
def TouchEvent.Quiet : TouchEvent ι → Prop
  | .button .. | .resend .. => True
  | _ => False

/-- What the guest needs a frame to be; it accepts it as it is. -/
structure Sendable (wire : ℚ → Value) (f : Frame) : Prop extends Frame.Valid f where
  below : ∀ p ∈ f.points, p.ident < 65536
  accepted : validate (f.value wire) = .ok f

/-- A proper frame is one that the guest accepts as it is. -/
theorem Frame.Proper.sendable {wire : ℚ → Value} (hwire : Exact wire) {f : Frame} (h : f.Proper) :
    Sendable wire f :=
  ⟨h.toValid, h.below, validate_value hwire h⟩

/-- The number of a touch in the frame of its event. -/
def Touches.identIn (t : Touches ι) (f : Frame) (a : ι) : Option Nat :=
  ((t.sent.map Touch.identity).zip (f.points.map Point.ident)).lookup a

namespace GuestView

/-- A run of the view, with the frames of each event. -/
abbrev Run : GuestView ι → List (TouchEvent ι × List Frame) → GuestView ι → Prop :=
  Steps fun v e frames v' => v.step e = (frames, v')

/-- A run whose events are clear. -/
abbrev ClearRun : GuestView ι → List (TouchEvent ι × List Frame) → GuestView ι → Prop :=
  Steps fun v e frames v' => v.step e = (frames, v') ∧ e.Clear v

/-- A new view is sound. -/
theorem sound_new : (new : GuestView ι).Sound where
  apart := nofun
  below := nofun
  frame := ⟨⟨Nat.zero_le _, List.nodup_nil⟩, nofun, nofun, Nat.zero_le _⟩

/-- A view whose touches are reset is sound. -/
theorem resetTouches_sound (v : GuestView ι) (isOpen : Bool) : (v.resetTouches isOpen).2.Sound where
  apart := nofun
  below := nofun
  frame := ⟨⟨Nat.zero_le _, List.nodup_nil⟩, nofun, nofun, Nat.zero_le _⟩

/-- Three bits. -/
theorem pressed_le {buttons : Nat} (h : buttons ≤ 7) (number : Fin 3) (down : Bool) :
    (if down then buttons ||| 1 <<< number.val else Nat.ldiff buttons (1 <<< number.val)) ≤ 7 := by
  have hlt : buttons < 2 ^ 3 := by omega
  refine Nat.le_of_lt_succ (?_ : _ < 2 ^ 3)
  split
  · refine Nat.or_lt_two_pow hlt ?_
    rw [Nat.one_shiftLeft]
    exact Nat.pow_lt_pow_right (by decide) number.isLt
  · refine Nat.lt_pow_two_of_testBit (n := 3) _ fun i hi => ?_
    rw [Nat.testBit_ldiff, Nat.testBit_lt_two_pow (hlt.trans_le (Nat.pow_le_pow_right (by decide) hi)),
      Bool.false_and]

/-- A clear event keeps the view sound. -/
theorem step_sound {v : GuestView ι} (h : v.Sound) {e : TouchEvent ι} (hclear : e.Clear v) :
    (v.step e).2.Sound := by
  cases e with
  | touches ready isOpen t =>
      cases ready <;> cases isOpen
      case true.true => exact touches_sound h hclear
      all_goals exact resetTouches_sound v _
  | reset isOpen => exact resetTouches_sound v isOpen
  | button number down isOpen =>
      exact ⟨h.apart, h.below, ⟨h.frame.count, h.frame.distinct⟩, h.frame.below, h.frame.within,
        pressed_le h.frame.pressed number down⟩
  | resend isOpen => exact h

/-- What is sent is what the view holds then. -/
theorem step_sent (v : GuestView ι) (e : TouchEvent ι) {f : Frame} (hf : f ∈ (v.step e).1) :
    f = ⟨(v.step e).2.touchPoints, (v.step e).2.touchButtons⟩ := by
  have hsend : ∀ (v : GuestView ι) isOpen, f ∈ v.sendTouches isOpen →
      f = ⟨v.touchPoints, v.touchButtons⟩ := by
    intro v isOpen hf
    rw [sendTouches] at hf
    split at hf
    · exact List.mem_singleton.mp hf
    · cases hf
  cases e with
  | touches ready isOpen t =>
      rw [step, touches] at hf ⊢
      split at hf
      · next hreset =>
          rw [if_pos hreset]
          exact hsend _ _ hf
      · next hready =>
          rw [if_neg hready]
          exact hsend _ _ hf
  | reset isOpen => exact hsend _ _ hf
  | button number down isOpen => exact hsend _ _ hf
  | resend isOpen => exact hsend _ _ hf

/-- **The frames of a step can be sent if, and only if, it is clear.** -/
theorem step_sendable_iff {wire : ℚ → Value} (hwire : Exact wire) {v : GuestView ι} (h : v.Sound)
    (e : TouchEvent ι) : (∀ f ∈ (v.step e).1, Sendable wire f) ↔ e.Clear v := by
  constructor
  · intro hsendable
    cases e with
    | touches ready isOpen t =>
        cases ready <;> cases isOpen
        case true.true =>
          have hframe := (v.touches_spec t).1
          have hmem : (⟨List.zipWith point (v.numbers t) t.sent, v.touchButtons⟩ : Frame) ∈
              (v.touches true true t).1 := by
            rw [hframe]
            exact List.mem_singleton_self _
          have hdistinct := (hsendable _ hmem).distinct
          simp only [points_ident] at hdistinct
          exact (numbers_nodup_iff h t).mp hdistinct
        all_goals exact trivial
    | _ => exact trivial
  · intro hclear f hf
    rw [step_sent v e hf]
    exact (step_sound h hclear).frame.sendable hwire

/-! ### A touch keeps its number -/

/-- The frame of an event, with the numbers in it. -/
theorem touches_frame (v : GuestView ι) (t : Touches ι) :
    ∃ f, (v.step (.touches true true t)).1 = [f] ∧
      ∀ a, t.identIn f a = ((t.sent.map Touch.identity).zip (v.numbers t)).lookup a := by
  refine ⟨_, (v.touches_spec t).1, fun a => ?_⟩
  rw [Touches.identIn, points_ident]

/-- Quiet events leave the numbers of the touches. -/
theorem quiet_touchIDs {v v' : GuestView ι} {mid : List (TouchEvent ι × List Frame)}
    (h : Run v mid v') (hquiet : ∀ x ∈ mid, x.1.Quiet) : v'.touchIDs = v.touchIDs := by
  induction h with
  | refl => rfl
  | @more v v₁ v' e frames mid hstep _ ih =>
      rw [List.forall_mem_cons] at hquiet
      have hkept : v₁.touchIDs = v.touchIDs := by
        have hv := congrArg Prod.snd hstep
        cases e with
        | button => exact (congrArg GuestView.touchIDs hv).symm
        | resend => exact (congrArg GuestView.touchIDs hv).symm
        | _ => exact hquiet.1.elim
      exact (ih hquiet.2).trans hkept

/-- **A touch of two events, one after the other, has one number in both frames.** -/
theorem ident_kept {v v' : GuestView ι} {t₁ t₂ : Touches ι} {frames₁ frames₂ : List Frame}
    {mid : List (TouchEvent ι × List Frame)} (hquiet : ∀ x ∈ mid, x.1.Quiet)
    (h : Run v ((.touches true true t₁, frames₁) :: (mid ++ [(.touches true true t₂, frames₂)])) v') :
    ∃ f₁ f₂, frames₁ = [f₁] ∧ frames₂ = [f₂] ∧
      ∀ a ∈ t₁.sent.map Touch.identity, a ∈ t₂.sent.map Touch.identity →
        ∃ ident, t₁.identIn f₁ a = some ident ∧ t₂.identIn f₂ a = some ident := by
  cases h with
  | @more _ v₁ _ _ _ _ hfirst hrest =>
      obtain ⟨v₂, hmid, hlast⟩ := hrest.split
      cases hlast with
      | more hsecond _ =>
          obtain ⟨f₁, hframe₁, hident₁⟩ := v.touches_frame t₁
          obtain ⟨f₂, hframe₂, hident₂⟩ := v₂.touches_frame t₂
          refine ⟨f₁, f₂, (congrArg Prod.fst hfirst).symm.trans hframe₁,
            (congrArg Prod.fst hsecond).symm.trans hframe₂, fun a ha₁ ha₂ => ?_⟩
          obtain ⟨ident, hident⟩ := lookup_zip_of_mem (v.numbers_length t₁) ha₁
          have hknown : v₂.touchIDs.lookup a = some ident := by
            rw [quiet_touchIDs hmid hquiet, ← hident, ← (v.touches_spec t₁).2.2.2 a]
            exact congrArg (fun r : List Frame × GuestView ι => r.2.touchIDs.lookup a) hfirst.symm
          exact ⟨ident, (hident₁ a).trans hident, (hident₂ a).trans (idents_lookup ha₂ hknown)⟩

/-- What holds after a run of clear events. -/
theorem clearRun_sound {wire : ℚ → Value} (hwire : Exact wire) {t : List (TouchEvent ι × List Frame)}
    {v : GuestView ι} (h : ClearRun new t v) :
    v.Sound ∧ ∀ x ∈ t, ∀ f ∈ x.2, Sendable wire f := by
  refine h.invariant_trace (u := []) (I := fun v t => v.Sound ∧ ∀ x ∈ t, ∀ f ∈ x.2, Sendable wire f)
    (fun {v t e frames v'} hv hstep => ?_) ⟨sound_new, nofun⟩
  obtain ⟨heq, hclear⟩ := hstep
  obtain ⟨rfl, rfl⟩ := Prod.ext_iff.mp heq
  refine ⟨step_sound hv.1 hclear, fun x hx => ?_⟩
  rcases List.mem_append.mp hx with hx | hx
  · exact hv.2 x hx
  · rw [List.mem_singleton.mp hx]
    exact (step_sendable_iff hwire hv.1 e).mpr hclear

/-- **In a run of clear events the guest accepts every frame, and a touch keeps its number; the
frames of the next event are accepted if, and only if, it is clear.** -/
theorem frames_accepted {wire : ℚ → Value} (hwire : Exact wire) {t : List (TouchEvent ι × List Frame)}
    {v : GuestView ι} (h : ClearRun new t v) :
    (∀ x ∈ t, ∀ f ∈ x.2, Sendable wire f) ∧
      (∀ u w mid t₁ t₂ frames₁ frames₂,
        t = u ++ (TouchEvent.touches true true t₁, frames₁) ::
          (mid ++ [(TouchEvent.touches true true t₂, frames₂)]) ++ w →
        (∀ x ∈ mid, x.1.Quiet) →
        ∃ f₁ f₂, frames₁ = [f₁] ∧ frames₂ = [f₂] ∧
          ∀ a ∈ t₁.sent.map Touch.identity, a ∈ t₂.sent.map Touch.identity →
            ∃ ident, t₁.identIn f₁ a = some ident ∧ t₂.identIn f₂ a = some ident) ∧
      ∀ e, (∀ f ∈ (v.step e).1, Sendable wire f) ↔ e.Clear v := by
  obtain ⟨hsound, hsent⟩ := clearRun_sound hwire h
  refine ⟨hsent, fun u w mid t₁ t₂ frames₁ frames₂ ht hquiet => ?_, step_sendable_iff hwire hsound⟩
  subst ht
  obtain ⟨v₂, hrun, -⟩ := (h.mono fun hstep => hstep.1).split
  obtain ⟨v₁, -, hrun⟩ := hrun.split
  exact ident_kept hquiet hrun

end GuestView

/-! ### A number that is taken -/

/-- A finger in the middle. -/
def finger (identity : Nat) : Touch Nat := ⟨identity, true, 1 / 2, 1 / 2, by norm_num⟩

/-- A finger, and a first one. -/
def beside (identity : Nat) (h : identity ≠ 0) : Touches Nat :=
  ⟨[finger 0, finger identity], by simp [finger, h.symm]⟩

/-- Two points at one place. -/
def pair (ident : Nat) : Frame := ⟨[⟨0, 1 / 2, 1 / 2⟩, ⟨ident, 1 / 2, 1 / 2⟩], 0⟩

namespace GuestView

/-- The first finger is held, and another one is there. -/
def hold (n : Nat) : GuestView Nat :=
  ⟨[(0, 0), (n, n % 65536)], (pair (n % 65536)).points, 0, n + 1⟩

/-- Two fingers are sent with their numbers, first the one that was there. -/
theorem beside_points (v : GuestView Nat) {a first second : Nat} (h : a ≠ 0) {v₁ v₂ : GuestView Nat}
    (hfirst : v.identify 0 = (first, v₁)) (hsecond : v₁.identify a = (second, v₂)) :
    v.step (.touches true true (beside a h)) =
      ([⟨[⟨first, 1 / 2, 1 / 2⟩, ⟨second, 1 / 2, 1 / 2⟩], v₂.touchButtons⟩],
        { v₂ with
          touchIDs := v₂.touchIDs.filter fun e => e.1 ∈ [0, a]
          touchPoints := [⟨first, 1 / 2, 1 / 2⟩, ⟨second, 1 / 2, 1 / 2⟩] }) := by
  have hgather : gather [finger 0, finger a] [] [] v =
      ([⟨first, 1 / 2, 1 / 2⟩, ⟨second, 1 / 2, 1 / 2⟩], [0, a], v₂) := by
    have hhalf : (1 - 2⁻¹ : ℚ) = 2⁻¹ := by norm_num
    simp [gather, finger, hfirst, hsecond, hhalf]
  rw [step, touches, if_neg (by simp), beside, hgather]
  rfl

/-- A new view sends the two fingers with the first numbers. -/
theorem new_hold : (new : GuestView Nat).step (.touches true true (beside 1 (by decide))) =
    ([pair 1], hold 1) :=
  beside_points new (by decide) rfl rfl

/-- The other one goes, and the next comes. -/
theorem hold_next {n : Nat} (hn : n ≠ 0) (hlt : n + 2 < 2 ^ 32) :
    (hold n).step (.touches true true (beside (n + 1) (by omega))) =
      ([pair ((n + 1) % 65536)], hold (n + 1)) := by
  have hnew : List.lookup (n + 1) [(0, 0), (n, n % 65536)] = none := by
    have hne : (n + 1 == n) = false := beq_false_of_ne (Nat.succ_ne_self n)
    simp [List.lookup_cons, hne]
  have hput : put [(0, 0), (n, n % 65536)] (n + 1) ((n + 1) % 65536) =
      [(0, 0), (n, n % 65536), (n + 1, (n + 1) % 65536)] := by
    rw [put, hnew]
    rfl
  have hsecond : (hold n).identify (n + 1) = ((n + 1) % 65536, { hold n with
      touchIDs := [(0, 0), (n, n % 65536), (n + 1, (n + 1) % 65536)]
      nextTouchID := n + 2 }) := by
    rw [identify, hold, hnew]
    simp only [hput, Nat.mod_eq_of_lt hlt]
  rw [beside_points (hold n) (by omega) rfl hsecond]
  simp [hold, pair, hn]

/-- The second finger of the sample keeps its number while it is held. -/
theorem frames_accepted_sample :
    Sendable (fun x => .float (some x)) (pair 1) ∧ Sendable (fun x => .float (some x)) (pair 2) ∧
      ∃ f₁ f₂, [pair 1] = [f₁] ∧ [pair 2] = [f₂] ∧
        ∀ a ∈ (beside 1 (by decide)).sent.map Touch.identity,
          a ∈ (beside 2 (by decide)).sent.map Touch.identity →
            ∃ ident, (beside 1 (by decide)).identIn f₁ a = some ident ∧
              (beside 2 (by decide)).identIn f₂ a = some ident := by
  have hrun : ClearRun new
      [(.touches true true (beside 1 (by decide)), [pair 1]),
        (.touches true true (beside 2 (by decide)), [pair 2])] (hold 2) :=
    .more ⟨new_hold, (by decide : GuestView.Clear new (beside 1 _))⟩
      (.more ⟨hold_next (by decide) (by decide), (by decide : (hold 1).Clear (beside 2 _))⟩ (.refl _))
  have hwire : Exact fun x => .float (some x) := fun x => .inl rfl
  obtain ⟨hsent, hkept, -⟩ := frames_accepted hwire hrun
  exact ⟨hsent _ (.head _) _ (.head _), hsent _ (.tail _ (.head _)) _ (.head _),
    hkept [] [] [] _ _ _ _ rfl nofun⟩

/-- The first finger is held while the others come and go. -/
theorem hold_run (n : Nat) (hlt : n + 3 ≤ 2 ^ 32) :
    ∃ t, Run (new : GuestView Nat) t (hold (n + 1)) := by
  induction n with
  | zero => exact ⟨_, .one new_hold⟩
  | succ n ih =>
      obtain ⟨t, hrun⟩ := ih (by omega)
      exact ⟨_, hrun.append (.one (hold_next (by omega) (by omega)))⟩

/-- **While one finger is held 65535 others come and go; the next one has its number.** -/
theorem ident_taken :
    ∃ (t : List (TouchEvent Nat × List Frame)) (v : GuestView Nat) (e : TouchEvent Nat) (f : Frame),
      Run new t v ∧ (v.step e).1 = [f] ∧ f.points.map Point.ident = [0, 0] ∧
        ∀ wire, Exact wire → validate (f.value wire) = .error "identity" := by
  obtain ⟨t, hrun⟩ := hold_run 65534 (by norm_num)
  refine ⟨t, hold 65535, .touches true true (beside 65536 (by decide)), pair 0, hrun, ?_, rfl, ?_⟩
  · rw [hold_next (n := 65535) (by norm_num) (by norm_num)]
  · intro wire hwire
    have hhalf : coordinate (wire (1 / 2)) = some (1 / 2) := coordinate_wire hwire (by norm_num)
    let first : Value := .list [.int 0, wire (1 / 2), wire (1 / 2)]
    have hfirst : validatePoint [] first = .ok ⟨0, 1 / 2, 1 / 2⟩ := by
      rw [validatePoint, hhalf]
      rfl
    have hsecond : validatePoint [0] first = .error "identity" := rfl
    have hpoints : validatePoints [] [first, first] = .error "identity" :=
      validatePoints_later hfirst (validatePoints_now hsecond)
    change (validatePoints [] [first, first] >>= fun _ => _) = _
    rw [hpoints]
    rfl

end GuestView

end Ashacky.Input
