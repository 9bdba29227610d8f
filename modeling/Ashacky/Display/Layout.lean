import Mathlib.Data.Fin.VecNotation
import Mathlib.Data.List.FinRange
import Mathlib.Data.List.Perm.Basic
import Mathlib.Logic.Function.Basic
import Mathlib.Data.UInt

/-!
# Display — Layout

`host/common/DisplayLayout.h`: which screen each virtual output of the guest shows.
`ashacky_plan_displays` makes the plan from the screens there are and from the plan before: it
chooses a screen for output zero, leaves the screens that stay on their outputs, and gives what is
left to the empty ones.

* `kept_external`: the second pass, output by output.
* `Sound`: what the passes keep; the entries are screens, and no screen stands twice.
* `placeAll_filled`: after the third pass no screen is left over while an output is empty.
* `placeAll_one`: with one screen to place, the order of the screens does not matter.
* `replan_apart`: what the plan before is in a run.
* `plan_stable`: the plan is stable, complete and free of duplicates.
-/

namespace Ashacky.Display

/-- `ASHACKY_DISPLAY_LIMIT`. -/
abbrev displayLimit : Nat := 3

/-- The screen of each output, or zero. -/
abbrev Plan := Fin displayLimit → UInt32

/-- `ashacky_screen_present`. -/
def screenPresent (id : UInt32) (screens : List UInt32) : Bool :=
  if id = 0 then false else screens.any (· = id)

/-- The screen of output zero. -/
def firstScreen (screen : UInt32) (screens : List UInt32) (builtIn : UInt32) (previous : Plan) :
    UInt32 :=
  if screenPresent builtIn screens then builtIn
  else if screenPresent (previous 0) screens then previous 0
  else screen

/-- After the first pass. -/
def started (first : UInt32) : Plan := Function.update (fun _ => 0) 0 first

/-- The other outputs, in order. -/
def externals : List (Fin displayLimit) := (List.finRange displayLimit).filter (· ≠ 0)

/-- A turn of the second loop. -/
def keep (screens : List UInt32) (previous : Plan) (next : Plan) (i : Fin displayLimit) : Plan :=
  if screenPresent (previous i) screens ∧ !screenPresent (previous i) (List.ofFn next) then
    Function.update next i (previous i)
  else next

/-- A turn of the third loop. -/
def place (next : Plan) (screen : UInt32) : Plan :=
  if screen = 0 ∨ screenPresent screen (List.ofFn next) then next
  else
    match externals.find? (next · = 0) with
    | some slot => Function.update next slot screen
    | none => next

/-- `ashacky_plan_displays`. -/
def planDisplays (screens : List UInt32) (builtIn : UInt32) (previous : Plan) : Plan :=
  match screens with
  | [] => fun _ => 0
  | screen :: _ =>
      let next := started (firstScreen screen screens builtIn previous)
      screens.foldl place (externals.foldl (keep screens previous) next)

/-! ### Presence -/

variable {screens : List UInt32} {builtIn screen : UInt32} {previous next : Plan}

/-- A screen is present when it is listed, and is not zero. -/
theorem screenPresent_iff {id : UInt32} :
    screenPresent id screens = true ↔ id ≠ 0 ∧ id ∈ screens := by
  rw [screenPresent]
  split
  · next h => simp [h]
  · next h => simp [h]

/-- The same of the screens of a plan. -/
theorem screenPresent_ofFn {id : UInt32} :
    screenPresent id (List.ofFn next) = true ↔ id ≠ 0 ∧ ∃ i, next i = id := by
  rw [screenPresent_iff, List.mem_ofFn']
  rfl

/-- The outputs but the first one are external. -/
theorem mem_externals {i : Fin displayLimit} : i ∈ externals ↔ i ≠ 0 := by
  simp [externals]

/-- Each external output stands once. -/
theorem externals_nodup : externals.Nodup := (List.nodup_finRange _).filter _

/-! ### The second pass -/

/-- The entries that are not zero are distinct. -/
def Apart (p : Plan) : Prop := ∀ i j, p i ≠ 0 → p i = p j → i = j

instance (p : Plan) : Decidable (Apart p) :=
  inferInstanceAs (Decidable (∀ i j, p i ≠ 0 → p i = p j → i = j))

/-- Placing the screen that an output had does not matter for the others. -/
theorem present_update (hprevious : Apart previous) {i j : Fin displayLimit} (hij : j ≠ i)
    (hempty : next i = 0) :
    screenPresent (previous j) (List.ofFn (Function.update next i (previous i))) =
      screenPresent (previous j) (List.ofFn next) := by
  rw [Bool.eq_iff_iff, screenPresent_ofFn, screenPresent_ofFn]
  refine and_congr_right fun hj => ⟨?_, ?_⟩
  · rintro ⟨k, hk⟩
    by_cases hki : k = i
    · rw [hki, Function.update_self] at hk
      exact absurd (hprevious j i hj hk.symm) hij
    · exact ⟨k, by rwa [Function.update_of_ne hki] at hk⟩
  · rintro ⟨k, hk⟩
    have hki : k ≠ i := by
      rintro rfl
      exact hj (hk.symm.trans hempty)
    exact ⟨k, by rwa [Function.update_of_ne hki]⟩

/-- An output that is gone through keeps its screen if that is there and not yet on another one. -/
theorem foldl_keep (hprevious : Apart previous) {slots : List (Fin displayLimit)} (hnodup : slots.Nodup)
    (hempty : ∀ i ∈ slots, next i = 0) (j : Fin displayLimit) :
    slots.foldl (keep screens previous) next j =
      if j ∈ slots ∧ screenPresent (previous j) screens ∧
          !screenPresent (previous j) (List.ofFn next) then
        previous j
      else next j := by
  induction slots generalizing next with
  | nil => simp
  | cons i slots ih =>
      obtain ⟨hi, hnodup⟩ := List.nodup_cons.mp hnodup
      rw [List.forall_mem_cons] at hempty
      rw [List.foldl_cons, keep]
      split
      · next hkeep =>
          have hrest : ∀ k ∈ slots, Function.update next i (previous i) k = 0 := by
            intro k hk
            rw [Function.update_of_ne (ne_of_mem_of_not_mem hk hi)]
            exact hempty.2 k hk
          rw [ih hnodup hrest]
          by_cases hj : j = i
          · subst hj
            rw [if_neg fun h => hi h.1, Function.update_self, if_pos ⟨List.mem_cons_self, hkeep⟩]
          · rw [present_update hprevious hj hempty.1, Function.update_of_ne hj]
            simp only [List.mem_cons, hj, false_or]
      · next hleave =>
          rw [ih hnodup hempty.2]
          by_cases hj : j = i
          · subst hj
            rw [if_neg fun h => hi h.1, if_neg fun h => hleave h.2]
          · simp only [List.mem_cons, hj, false_or]

/-- The plan after the second pass. -/
def kept (screens : List UInt32) (previous : Plan) (first : UInt32) : Plan :=
  externals.foldl (keep screens previous) (started first)

/-- After the first pass the external outputs are empty. -/
theorem started_external {first : UInt32} : ∀ i ∈ externals, started first i = 0 :=
  fun _ hi => Function.update_of_ne (mem_externals.mp hi) _ _

/-- The second pass leaves the first output. -/
theorem kept_zero (hprevious : Apart previous) (first : UInt32) : kept screens previous first 0 = first := by
  rw [kept, foldl_keep hprevious externals_nodup started_external, if_neg fun h => mem_externals.mp h.1 rfl,
    started, Function.update_self]

/-- **The second pass**, output by output. -/
theorem kept_external (hprevious : Apart previous) {first : UInt32} {j : Fin displayLimit} (hj : j ≠ 0) :
    kept screens previous first j =
      if screenPresent (previous j) screens ∧ previous j ≠ first then previous j else 0 := by
  have hpresent : previous j ≠ 0 →
      (screenPresent (previous j) (List.ofFn (started first)) = true ↔ previous j = first) := by
    intro hid
    rw [screenPresent_ofFn]
    constructor
    · rintro ⟨-, k, hk⟩
      by_cases hk0 : k = 0
      · rw [hk0, started, Function.update_self] at hk
        exact hk.symm
      · rw [started_external k (mem_externals.mpr hk0)] at hk
        exact absurd hk.symm hid
    · intro hfirst
      exact ⟨hid, 0, by rw [started, Function.update_self, hfirst]⟩
  rw [kept, foldl_keep hprevious externals_nodup started_external, started_external j (mem_externals.mpr hj)]
  refine if_congr ?_ rfl rfl
  constructor
  · rintro ⟨-, hthere, hfree⟩
    refine ⟨hthere, fun hfirst => ?_⟩
    rw [(hpresent (screenPresent_iff.mp hthere).1).mpr hfirst] at hfree
    cases hfree
  · rintro ⟨hthere, hne⟩
    refine ⟨mem_externals.mpr hj, hthere, ?_⟩
    have hid := (screenPresent_iff.mp hthere).1
    simpa using mt (hpresent hid).mp hne

/-! ### The third pass -/

/-- The entries are screens, and no screen stands twice. -/
structure Sound (screens : List UInt32) (p : Plan) : Prop where
  there : ∀ i, p i ≠ 0 → p i ∈ screens
  apart : Apart p

/-- All outputs show a screen. -/
def Full (p : Plan) : Prop := ∀ i, p i ≠ 0

/-- The third pass leaves the plan, or puts the screen into an empty output. -/
theorem place_cases (next : Plan) (screen : UInt32) :
    (place next screen = next ∧ (screen = 0 ∨ (∃ i, next i = screen) ∨ ∀ i ≠ 0, next i ≠ 0)) ∨
      ∃ i, next i = 0 ∧ screen ≠ 0 ∧ (∀ j, next j ≠ screen) ∧
        place next screen = Function.update next i screen := by
  rw [place]
  split
  · next h =>
      exact .inl ⟨rfl, h.imp_right fun hthere => .inl (screenPresent_ofFn.mp hthere).2⟩
  · next h =>
      obtain ⟨hid, hnew⟩ := not_or.mp h
      split
      · next slot hslot =>
          have hempty : next slot = 0 := by simpa using List.find?_some hslot
          refine .inr ⟨slot, hempty, hid, fun j hj => hnew ?_, rfl⟩
          exact screenPresent_ofFn.mpr ⟨hid, j, hj⟩
      · next hnone =>
          refine .inl ⟨rfl, .inr (.inr fun i hi => ?_)⟩
          simpa using List.find?_eq_none.mp hnone i (mem_externals.mpr hi)

/-- What is placed stays where it is. -/
theorem place_kept {j : Fin displayLimit} (hj : next j ≠ 0) (screen : UInt32) :
    place next screen j = next j := by
  rcases place_cases next screen with ⟨heq, -⟩ | ⟨i, hi, -, -, heq⟩
  · rw [heq]
  · rw [heq, Function.update_of_ne]
    rintro rfl
    exact hj hi

/-- Placing a screen keeps the plan sound. -/
theorem Sound.place (h : Sound screens next) (hscreen : screen ∈ screens) :
    Sound screens (place next screen) := by
  rcases place_cases next screen with ⟨heq, -⟩ | ⟨i, -, hid, hnew, heq⟩
  · rw [heq]
    exact h
  · rw [heq]
    constructor
    · intro j hj
      by_cases hji : j = i
      · rw [hji, Function.update_self]
        exact hscreen
      · rw [Function.update_of_ne hji] at hj ⊢
        exact h.there j hj
    · intro j k hj hjk
      by_cases hji : j = i <;> by_cases hki : k = i
      · rw [hji, hki]
      · rw [hji, Function.update_self, Function.update_of_ne hki] at hjk
        exact absurd hjk.symm (hnew k)
      · rw [hki, Function.update_self, Function.update_of_ne hji] at hjk
        exact absurd hjk (hnew j)
      · rw [Function.update_of_ne hji] at hj hjk
        rw [Function.update_of_ne hki] at hjk
        exact h.apart j k hj hjk

/-- A screen is on an output afterwards, or no output is empty. -/
theorem place_filled (hzero : next 0 ≠ 0) (hid : screen ≠ 0) :
    (∃ i, place next screen i = screen) ∨ Full (place next screen) := by
  rcases place_cases next screen with ⟨heq, hid' | hthere | hfull⟩ | ⟨i, -, -, -, heq⟩
  · exact absurd hid' hid
  · rw [heq]
    exact .inl hthere
  · rw [heq]
    refine .inr fun i => ?_
    by_cases hi : i = 0
    · exact hi ▸ hzero
    · exact hfull i hi
  · rw [heq]
    exact .inl ⟨i, Function.update_self ..⟩

/-- An output that shows a screen goes on showing it. -/
theorem foldl_place_kept {j : Fin displayLimit} (hj : next j ≠ 0) (l : List UInt32) :
    l.foldl place next j = next j := by
  induction l generalizing next with
  | nil => rfl
  | cons s l ih =>
      have hsame := place_kept hj s
      rw [List.foldl_cons, ih (hsame ▸ hj), hsame]

/-- Placing screens keeps the plan sound. -/
theorem Sound.placeAll (h : Sound screens next) {l : List UInt32} (hl : ∀ s ∈ l, s ∈ screens) :
    Sound screens (l.foldl Display.place next) := by
  induction l generalizing next with
  | nil => exact h
  | cons s l ih =>
      rw [List.forall_mem_cons] at hl
      exact ih (h.place hl.1) hl.2

/-- **No screen is left over while an output is empty.** -/
theorem placeAll_filled (hzero : next 0 ≠ 0) {l : List UInt32} (hl : ∀ s ∈ l, s ≠ 0) {s : UInt32}
    (hs : s ∈ l) : (∃ i, l.foldl place next i = s) ∨ Full (l.foldl place next) := by
  induction l generalizing next with
  | nil => cases hs
  | cons t l ih =>
      rw [List.forall_mem_cons] at hl
      have hzero' : place next t 0 ≠ 0 := place_kept hzero t ▸ hzero
      rw [List.foldl_cons]
      rcases List.mem_cons.mp hs with rfl | hs
      · -- What holds after the turn of the screen holds to the end, for what is placed stays.
        rcases place_filled hzero hl.1 with ⟨i, hi⟩ | hfull
        · refine .inl ⟨i, ?_⟩
          have hne : place next s i ≠ 0 := by
            rw [hi]
            exact hl.1
          rw [foldl_place_kept hne, hi]
        · refine .inr fun i => ?_
          rw [foldl_place_kept (hfull i)]
          exact hfull i
      · exact ih hzero' hl.2 hs

/-- A screen that is shown is not placed. -/
theorem place_of_there {i : Fin displayLimit} (hi : next i = screen) : place next screen = next := by
  rcases place_cases next screen with ⟨heq, -⟩ | ⟨-, -, -, hnew, -⟩
  · exact heq
  · exact absurd hi (hnew i)

/-- A full plan is left as it is. -/
theorem place_of_full (hfull : Full next) (screen : UInt32) : place next screen = next := by
  rcases place_cases next screen with ⟨heq, -⟩ | ⟨i, hi, -⟩
  · exact heq
  · exact absurd hi (hfull i)

/-- A plan that shows all screens, or is full, is left as it is. -/
theorem foldl_place_eq_self {l : List UInt32} (h : ∀ s ∈ l, (∃ i, next i = s) ∨ Full next) :
    l.foldl place next = next := by
  induction l with
  | nil => rfl
  | cons s l ih =>
      rw [List.forall_mem_cons] at h
      have hsame : place next s = next := by
        rcases h.1 with ⟨i, hi⟩ | hfull
        · exact place_of_there hi
        · exact place_of_full hfull s
      rw [List.foldl_cons, hsame]
      exact ih h.2

/-- **With one screen to place, the order does not matter.** -/
theorem placeAll_one (hzero : next 0 ≠ 0) {l : List UInt32} (hl : ∀ s ∈ l, s ≠ 0) {one : UInt32}
    (hone : ∀ s ∈ l, s = one ∨ ∃ i, next i = s) :
    l.foldl place next = if one ∈ l then place next one else next := by
  induction l with
  | nil => rfl
  | cons s l ih =>
      rw [List.forall_mem_cons] at hl hone
      rw [List.foldl_cons]
      by_cases hs : s = one
      · subst hs
        rw [if_pos List.mem_cons_self]
        refine foldl_place_eq_self fun t ht => ?_
        have hfilled := place_filled hzero hl.1
        rcases hone.2 t ht with rfl | ⟨i, hi⟩
        · exact hfilled
        · have hne : next i ≠ 0 := by
            rw [hi]
            exact hl.2 t ht
          exact .inl ⟨i, by rw [place_kept hne, hi]⟩
      · obtain ⟨i, hi⟩ := hone.1.resolve_left hs
        rw [place_of_there hi, ih hl.2 hone.2]
        simp only [List.mem_cons, Ne.symm hs, false_or]

/-! ### The plan -/

/-- The first output shows a screen that is there. -/
theorem firstScreen_mem (hscreen : screen ∈ screens) :
    firstScreen screen screens builtIn previous ∈ screens := by
  rw [firstScreen]
  split
  · next h => exact (screenPresent_iff.mp h).2
  · split
    · next h => exact (screenPresent_iff.mp h).2
    · exact hscreen

/-- The plan of the second pass is sound. -/
theorem kept_sound (hprevious : Apart previous) {first : UInt32} (hfirst : first ∈ screens) :
    Sound screens (kept screens previous first) := by
  have hcases : ∀ i ≠ 0, kept screens previous first i ≠ 0 →
      screenPresent (previous i) screens = true ∧ previous i ≠ first ∧
        kept screens previous first i = previous i := by
    intro i hi hne
    rw [kept_external hprevious hi] at hne ⊢
    split at hne
    · next h => exact ⟨h.1, h.2, if_pos h⟩
    · exact absurd rfl hne
  constructor
  · intro i hi
    by_cases h0 : i = 0
    · rw [h0, kept_zero hprevious]
      exact hfirst
    · obtain ⟨hthere, -, heq⟩ := hcases i h0 hi
      rw [heq]
      exact (screenPresent_iff.mp hthere).2
  · intro i j hi hij
    by_cases hi0 : i = 0 <;> by_cases hj0 : j = 0
    · rw [hi0, hj0]
    · obtain ⟨-, hne, heq⟩ := hcases j hj0 (hij ▸ hi)
      rw [hi0, kept_zero hprevious, heq] at hij
      exact absurd hij.symm hne
    · obtain ⟨-, hne, heq⟩ := hcases i hi0 hi
      rw [hj0, kept_zero hprevious, heq] at hij
      exact absurd hij hne
    · obtain ⟨hthere, -, heqi⟩ := hcases i hi0 hi
      obtain ⟨-, -, heqj⟩ := hcases j hj0 (hij ▸ hi)
      rw [heqi, heqj] at hij
      exact hprevious i j (screenPresent_iff.mp hthere).1 hij

/-- With a screen there, the plan is made in the three passes. -/
theorem planDisplays_eq (hne : screens ≠ []) :
    planDisplays screens builtIn previous = screens.foldl place
      (kept screens previous (firstScreen (screens.head hne) screens builtIn previous)) := by
  cases screens with
  | nil => exact absurd rfl hne
  | cons screen screens => rfl

/-- The plan is sound. -/
theorem planDisplays_sound (hprevious : Apart previous) :
    Sound screens (planDisplays screens builtIn previous) := by
  cases screens with
  | nil => exact ⟨fun i hi => absurd rfl hi, fun i j hi => absurd rfl hi⟩
  | cons screen screens =>
      exact (kept_sound hprevious (firstScreen_mem List.mem_cons_self)).placeAll fun s hs => hs

/-- The plans of a run: each is made from the one before. -/
def replan (changes : List (List UInt32 × UInt32)) : Plan :=
  changes.foldl (fun p c => planDisplays c.1 c.2 p) fun _ => 0

/-- The plan that the next one is made from has each screen once. -/
theorem replan_apart (changes : List (List UInt32 × UInt32)) : Apart (replan changes) := by
  induction changes using List.reverseRecOn with
  | nil => exact fun i j hi => absurd rfl hi
  | append_singleton changes c ih =>
      rw [replan, List.foldl_concat]
      exact (planDisplays_sound ih).apart

section Plan
variable (builtIn) (hne : screens ≠ []) (hids : ∀ s ∈ screens, s ≠ 0) (hprevious : Apart previous)
include hne hids hprevious

/-- The first output shows a screen. -/
theorem kept_zero_ne :
    kept screens previous (firstScreen (screens.head hne) screens builtIn previous) 0 ≠ 0 := by
  rw [kept_zero hprevious]
  exact hids _ (firstScreen_mem (List.head_mem hne))

/-- The first output shows the screen that is chosen for it. -/
theorem planDisplays_zero :
    planDisplays screens builtIn previous 0 = firstScreen (screens.head hne) screens builtIn previous := by
  rw [planDisplays_eq hne, foldl_place_kept (kept_zero_ne builtIn hne hids hprevious), kept_zero hprevious]

/-- An external output goes on showing its screen, unless the first output took it. -/
theorem planDisplays_stays {i : Fin displayLimit} (hi : i ≠ 0) (hthere : previous i ∈ screens)
    (hfirst : previous i ≠ planDisplays screens builtIn previous 0) :
    planDisplays screens builtIn previous i = previous i := by
  rw [planDisplays_zero builtIn hne hids hprevious] at hfirst
  have hkept : kept screens previous (firstScreen (screens.head hne) screens builtIn previous) i =
      previous i := by
    rw [kept_external hprevious hi, if_pos ⟨screenPresent_iff.mpr ⟨hids _ hthere, hthere⟩, hfirst⟩]
  rw [planDisplays_eq hne, foldl_place_kept (by rw [hkept]; exact hids _ hthere), hkept]

/-- If an output is empty, every screen is shown. -/
theorem planDisplays_complete {i : Fin displayLimit} (hi : planDisplays screens builtIn previous i = 0) :
    ∀ s ∈ screens, ∃ j, planDisplays screens builtIn previous j = s := by
  intro s hs
  rw [planDisplays_eq hne] at hi ⊢
  exact (placeAll_filled (kept_zero_ne builtIn hne hids hprevious) hids hs).resolve_right fun hfull => hfull i hi

/-- **Planning again changes nothing.** -/
theorem planDisplays_again :
    planDisplays screens builtIn (planDisplays screens builtIn previous) =
      planDisplays screens builtIn previous := by
  have hsound : Sound screens (planDisplays screens builtIn previous) := planDisplays_sound hprevious
  have hzero := planDisplays_zero builtIn hne hids hprevious
  have hcomplete := fun {i} => planDisplays_complete builtIn (i := i) hne hids hprevious
  generalize planDisplays screens builtIn previous = p at hsound hzero hcomplete ⊢
  have hp0 : p 0 ∈ screens := hzero ▸ firstScreen_mem (List.head_mem hne)
  have hfirst : firstScreen (screens.head hne) screens builtIn p = p 0 := by
    rw [firstScreen] at hzero ⊢
    split
    · next hbuiltIn => rw [hzero, if_pos hbuiltIn]
    · rw [if_pos (screenPresent_iff.mpr ⟨hids _ hp0, hp0⟩)]
  have hkept : kept screens p (p 0) = p := by
    funext j
    by_cases hj : j = 0
    · rw [hj, kept_zero hsound.apart]
    · rw [kept_external hsound.apart hj]
      split
      · rfl
      · next h =>
          -- An entry that is not zero is a screen, and not the one of output zero.
          by_contra hentry
          have hj' : p j ≠ 0 := fun heq => hentry heq.symm
          refine h ⟨screenPresent_iff.mpr ⟨hj', hsound.there j hj'⟩, fun heq => ?_⟩
          exact hj (hsound.apart j 0 hj' heq)
  rw [planDisplays_eq hne, hfirst, hkept]
  refine foldl_place_eq_self fun s hs => ?_
  by_cases hfull : Full p
  · exact .inr hfull
  · obtain ⟨i, hi⟩ := not_forall.mp hfull
    exact .inl (hcomplete (not_not.mp hi) s hs)

omit hne in
/-- Only the screen of output zero in the plan before can be without an output then. -/
theorem kept_one (hknown : ∀ s ∈ screens, ∃ i, previous i = s) {first s : UInt32} (hs : s ∈ screens) :
    s = previous 0 ∨ ∃ i, kept screens previous first i = s := by
  obtain ⟨i, rfl⟩ := hknown s hs
  by_cases hi : i = 0
  · exact .inl (hi ▸ rfl)
  · by_cases hfirst : previous i = first
    · exact .inr ⟨0, by rw [kept_zero hprevious, hfirst]⟩
    · refine .inr ⟨i, ?_⟩
      rw [kept_external hprevious hi, if_pos ⟨screenPresent_iff.mpr ⟨hids _ hs, hs⟩, hfirst⟩]

/-- **The order of the screens does not matter** if each of them was there, and one of those that
output zero shows first is. -/
theorem planDisplays_perm (hzero : builtIn ∈ screens ∨ previous 0 ∈ screens)
    (hknown : ∀ s ∈ screens, ∃ i, previous i = s) {screens' : List UInt32}
    (hperm : screens'.Perm screens) :
    planDisplays screens' builtIn previous = planDisplays screens builtIn previous := by
  have hmem : ∀ s, s ∈ screens' ↔ s ∈ screens := fun s => hperm.mem_iff
  have hpresent : ∀ id, screenPresent id screens' = screenPresent id screens := by
    intro id
    rw [Bool.eq_iff_iff, screenPresent_iff, screenPresent_iff, hmem]
  have hne' : screens' ≠ [] := fun h => hne (List.perm_nil.mp (h ▸ hperm.symm))
  have hids' : ∀ s ∈ screens', s ≠ 0 := fun s hs => hids s ((hmem s).mp hs)
  have hfirst : firstScreen (screens'.head hne') screens' builtIn previous =
      firstScreen (screens.head hne) screens builtIn previous := by
    rw [firstScreen, firstScreen, hpresent, hpresent]
    rcases hzero with hbuiltIn | hprevious0
    · have hthere := screenPresent_iff.mpr ⟨hids _ hbuiltIn, hbuiltIn⟩
      rw [if_pos hthere, if_pos hthere]
    · have hthere := screenPresent_iff.mpr ⟨hids _ hprevious0, hprevious0⟩
      rw [if_pos hthere, if_pos hthere]
  have hkeep : ∀ first, kept screens' previous first = kept screens previous first := by
    intro first
    funext j
    by_cases hj : j = 0
    · rw [hj, kept_zero hprevious, kept_zero hprevious]
    · rw [kept_external hprevious hj, kept_external hprevious hj, hpresent]
  have hplaced := kept_zero_ne builtIn hne hids hprevious
  rw [planDisplays_eq hne, planDisplays_eq hne', hfirst, hkeep,
    placeAll_one hplaced hids fun s hs => kept_one hids hprevious hknown hs,
    placeAll_one hplaced hids' fun s hs => kept_one hids hprevious hknown ((hmem s).mp hs)]
  exact if_congr (hmem _) rfl rfl

end Plan

/-- **The plan is stable, complete and free of duplicates.** -/
theorem plan_stable (screens : List UInt32) (builtIn : UInt32) (previous : Plan) (hne : screens ≠ [])
    (hids : ∀ s ∈ screens, s ≠ 0) (hprevious : Apart previous) :
    let next := planDisplays screens builtIn previous
    (∀ i, next i ≠ 0 → next i ∈ screens) ∧ Apart next ∧
      next 0 = (if builtIn ∈ screens then builtIn
        else if previous 0 ∈ screens then previous 0 else screens.head hne) ∧
      (∀ i ≠ 0, previous i ∈ screens → previous i ≠ next 0 → next i = previous i) ∧
      (∀ i, next i = 0 → ∀ s ∈ screens, ∃ j, next j = s) ∧
      planDisplays screens builtIn next = next ∧
      ((builtIn ∈ screens ∨ previous 0 ∈ screens) → (∀ s ∈ screens, ∃ i, previous i = s) →
        ∀ screens' : List UInt32, screens'.Perm screens →
          planDisplays screens' builtIn previous = next) := by
  have hsound : Sound screens (planDisplays screens builtIn previous) := planDisplays_sound hprevious
  have hpresent : ∀ id, screenPresent id screens = true ↔ id ∈ screens := fun id =>
    screenPresent_iff.trans (and_iff_right_of_imp (hids id))
  refine ⟨hsound.there, hsound.apart, ?_, fun i hi => planDisplays_stays builtIn hne hids hprevious hi,
    fun i hi => planDisplays_complete builtIn hne hids hprevious hi,
    planDisplays_again builtIn hne hids hprevious,
    fun hzero hknown screens' hperm => planDisplays_perm builtIn hne hids hprevious hzero hknown hperm⟩
  rw [planDisplays_zero builtIn hne hids hprevious, firstScreen]
  exact if_congr (hpresent _) rfl (if_congr (hpresent _) rfl rfl)

/-- A monitor takes the place of the built-in screen while the lid is closed, and keeps it when the
screens are listed the other way round. -/
theorem plan_stable_closed :
    let next := planDisplays [22, 33] 11 ![11, 22, 33]
    next = ![22, 0, 33] ∧ Apart next ∧ planDisplays [22, 33] 11 next = next ∧
      planDisplays [33, 22] 11 next = next := by
  intro next
  obtain ⟨-, hapart, -, -, -, hagain, -⟩ :=
    plan_stable [22, 33] 11 ![11, 22, 33] (by decide) (by simp) (by decide)
  obtain ⟨-, -, -, -, -, -, horder⟩ := plan_stable [22, 33] 11 next (by decide) (by simp) hapart
  have hnext : next = ![22, 0, 33] := by decide
  have hzero : next 0 ∈ [22, 33] := by simp [hnext]
  have hknown : ∀ s ∈ [22, 33], ∃ i, next i = s := by
    rw [hnext]
    exact List.forall_mem_cons.mpr ⟨⟨0, rfl⟩, List.forall_mem_cons.mpr ⟨⟨2, rfl⟩, nofun⟩⟩
  refine ⟨hnext, hapart, hagain, ?_⟩
  exact (horder (.inr hzero) hknown _ (.swap 22 33 [])).trans hagain

end Ashacky.Display
