import Ashacky.Support.Lines
import Ashacky.Support.Utf8

/-!
# Input — Replies

The frontend's end of the touch port, `port:didRecieveData:` of `host/frontend/main.m`.  The guest
writes a line for each acknowledgement; the handler puts what it receives behind `inputReply`, looks
for the three lines in all of it, and empties it if one is there.

What follows the last line is then lost.  If it is the start of a line, that line is *torn*: when the
rest of it comes, the handler does not recognise it.

* `receive_lines`: the lines that the handler recognises are those of which nothing was lost.
* `recognised_iff`: the split streams of which every line is recognised when it is complete.
-/

namespace Ashacky.Input.Replies
open Ashacky.Support

/-- The acknowledgements, in the order in which the handler looks for them. -/
inductive Kind where
  | probe
  | applied
  | ready
deriving DecidableEq

/-- The line without its end. -/
def Kind.line : Kind → Data
  | .probe => [0x4c, 0x48, 0x5f, 0x49, 0x4e, 0x50, 0x55, 0x54, 0x5f, 0x50, 0x52, 0x4f, 0x42, 0x45]
  | .applied =>
      [0x4c, 0x48, 0x5f, 0x49, 0x4e, 0x50, 0x55, 0x54, 0x5f, 0x41, 0x50, 0x50, 0x4c, 0x49, 0x45, 0x44]
  | .ready => [0x4c, 0x48, 0x5f, 0x49, 0x4e, 0x50, 0x55, 0x54, 0x5f, 0x52, 0x45, 0x41, 0x44, 0x59]

/-- What the guest writes. -/
def Kind.token (k : Kind) : Data := k.line ++ [10]

/-- What the handler looks for. -/
def Kind.text : Kind → String
  | .probe => "LH_INPUT_PROBE\n"
  | .applied => "LH_INPUT_APPLIED\n"
  | .ready => "LH_INPUT_READY\n"

/-- How long the acknowledgement holds, in milliseconds. -/
def Kind.period : Kind → Nat
  | .probe => 5000
  | .applied => 500
  | .ready => 3000

/-- The properties of the application that the handler uses. -/
structure App where
  inputReply : Data
  inputProbeUntil : Nat
  inputAppliedUntil : Nat
  inputReadyUntil : Nat

/-- `[reply containsString:…]`; there is no reply if the bytes are not UTF-8. -/
def contains (reply : Option (List Char)) (k : Kind) : Bool :=
  reply.any fun text => k.text.toList <:+: text

namespace App

/-- One of the three branches. -/
def refresh (uptime : Nat) (app : App) : Kind → App
  | .probe => { app with inputProbeUntil := uptime + Kind.probe.period, inputReply := [] }
  | .applied => { app with inputAppliedUntil := uptime + Kind.applied.period, inputReply := [] }
  | .ready => { app with inputReadyUntil := uptime + Kind.ready.period, inputReply := [] }

/-- `port:didRecieveData:` of the touch port: the branches that are taken, and what they leave. -/
def receive (uptime : Nat) (data : Data) (app : App) : List Kind × App :=
  let app := { app with inputReply := app.inputReply ++ data }
  let reply := Utf8.decode app.inputReply
  let kinds := [Kind.probe, .applied, .ready].filter (contains reply)
  let app := kinds.foldl (refresh uptime) app
  (kinds, if app.inputReply.length > 256 then { app with inputReply := [] } else app)

/-- Until when an acknowledgement holds. -/
def deadline (app : App) : Kind → Nat
  | .probe => app.inputProbeUntil
  | .applied => app.inputAppliedUntil
  | .ready => app.inputReadyUntil

/-- The branches that are taken set the deadlines of their kinds and no others. -/
theorem foldl_refresh_deadline (uptime : Nat) (kinds : List Kind) (app : App) (k : Kind) :
    (kinds.foldl (refresh uptime) app).deadline k =
      if k ∈ kinds then uptime + k.period else app.deadline k := by
  induction kinds generalizing app with
  | nil => rfl
  | cons j kinds ih =>
      rw [List.foldl_cons, ih]
      by_cases hk : k ∈ kinds
      · rw [if_pos hk, if_pos (List.mem_cons_of_mem _ hk)]
      · by_cases hj : k = j
        · subst hj
          rw [if_neg hk, if_pos List.mem_cons_self]
          cases k <;> rfl
        · rw [if_neg hk, if_neg (by simp [hj, hk])]
          cases j <;> cases k <;> first | rfl | exact absurd rfl hj

/-- A branch that is taken sets its deadline, and no other does. -/
theorem receive_deadline (uptime : Nat) (data : Data) (app : App) (k : Kind) :
    (app.receive uptime data).2.deadline k =
      if k ∈ (app.receive uptime data).1 then uptime + k.period else app.deadline k := by
  have hfold := foldl_refresh_deadline uptime (app.receive uptime data).1
    { app with inputReply := app.inputReply ++ data } k
  have hsame : ({ app with inputReply := app.inputReply ++ data } : App).deadline k = app.deadline k := by
    cases k <;> rfl
  rw [hsame] at hfold
  rw [← hfold, receive]
  dsimp only
  split
  · cases k <;> rfl
  · rfl

/-- They clear the reply if there is one of them. -/
theorem foldl_refresh_reply (uptime : Nat) (kinds : List Kind) (app : App) :
    (kinds.foldl (refresh uptime) app).inputReply = if kinds = [] then app.inputReply else [] := by
  induction kinds generalizing app with
  | nil => rfl
  | cons j kinds ih =>
      have hempty : (app.refresh uptime j).inputReply = [] := by cases j <;> rfl
      rw [List.foldl_cons, ih, hempty, if_neg (List.cons_ne_nil _ _), ite_self]

/-- What is kept: all, unless a branch is taken or it is too long. -/
theorem receive_reply (uptime : Nat) (data : Data) (app : App)
    (h : (app.inputReply ++ data).length ≤ 256 ∨ (app.receive uptime data).1 ≠ []) :
    (app.receive uptime data).2.inputReply =
      if (app.receive uptime data).1 = [] then app.inputReply ++ data else [] := by
  have hfold := foldl_refresh_reply uptime (app.receive uptime data).1
    { app with inputReply := app.inputReply ++ data }
  have hshort : ¬ ((app.receive uptime data).1.foldl (refresh uptime)
      { app with inputReply := app.inputReply ++ data }).inputReply.length > 256 := by
    rw [hfold]
    split
    · next hnone => exact Nat.not_lt.mpr (h.resolve_right (not_not.mpr hnone))
    · exact Nat.not_lt_zero _
  refine Eq.trans ?_ hfold
  rw [receive] at hshort ⊢
  exact congrArg _ (if_neg hshort)

end App

/-! ### Lines in the reply -/

/-- The lines of the acknowledgements. -/
def lines (kinds : List Kind) : Data := kinds.flatMap Kind.token

/-- The end of a line, or nothing: its start was lost. -/
def Tail (d : Data) : Prop := ∃ k x, x ≠ [] ∧ Kind.token k = x ++ d

/-- A part of a line without its end, or nothing. -/
def Piece (d : Data) : Prop := ∃ k, d <:+: Kind.line k

/-- The start of a line that has no end yet, or nothing. -/
def Start (d : Data) : Prop := ∃ k, d <+: Kind.line k

@[simp] theorem lines_cons (k : Kind) (kinds : List Kind) : lines (k :: kinds) = k.token ++ lines kinds := rfl

/-- No line has a line feed inside. -/
theorem line_no_newline (k : Kind) : 10 ∉ k.line := by cases k <;> decide

theorem line_ascii (k : Kind) : ∀ b ∈ k.line, b.toNat < 0x80 := by
  have hall : k.line.all (fun b => b.toNat < 0x80) := by cases k <;> rfl
  exact fun b hb => of_decide_eq_true (List.all_eq_true.mp hall b hb)

/-- A line has 16 bytes at most. -/
theorem line_length (k : Kind) : k.line.length ≤ 16 := by cases k <;> decide

/-- No line is the end of another. -/
theorem line_suffix {j k : Kind} (h : j.line <:+ k.line) : j = k := by
  revert h
  cases j <;> cases k <;> decide

/-- What the handler looks for is what the guest writes. -/
theorem text_eq (k : Kind) : k.text.toList = k.token.map fun b => Char.ofNat b.toNat := by
  cases k <;> decide

theorem token_ascii (k : Kind) : ∀ b ∈ k.token, b.toNat < 0x80 := by
  intro b hb
  rcases List.mem_append.mp hb with hb | hb
  · exact line_ascii k b hb
  · obtain rfl := List.mem_singleton.mp hb
    decide

theorem start_nil : Start [] := ⟨.ready, List.nil_prefix⟩

theorem tail_nil : Tail [] := ⟨.ready, Kind.ready.token, List.cons_ne_nil _ _, (List.append_nil _).symm⟩

/-- The start of a line is a part of it. -/
theorem Start.piece {d : Data} (h : Start d) : Piece d := by
  obtain ⟨k, h⟩ := h
  exact ⟨k, h.isInfix⟩

/-- A part of a line has no line feed. -/
theorem Piece.no_newline {d : Data} (h : Piece d) : 10 ∉ d := by
  obtain ⟨k, h⟩ := h
  exact fun hd => line_no_newline k (h.subset hd)

/-- Different bytes are different characters. -/
theorem charOfByte_injective : Function.Injective fun b : UInt8 => Char.ofNat b.toNat := by
  intro a b h
  have hback : ∀ c : UInt8, (Char.ofNat c.toNat).toNat = c.toNat := fun c => by
    have hvalid : c.toNat.isValidChar := .inl (c.toNat_lt.trans (by decide))
    rw [Char.ofNat, dif_pos hvalid]
    rfl
  exact UInt8.toNat_inj.mp ((hback a).symm.trans ((congrArg Char.toNat h).trans (hback b)))

/-- The handler looks for the bytes of a line. -/
theorem contains_iff {d : Data} (h : ∀ b ∈ d, b.toNat < 0x80) (k : Kind) :
    contains (Utf8.decode d) k = true ↔ k.token <:+: d := by
  rw [contains, Utf8.decode_ascii h, Option.any_some, decide_eq_true_iff, text_eq, List.infix_map_iff]
  constructor
  · rintro ⟨l, hl, heq⟩
    rwa [List.map_injective_iff.mpr charOfByte_injective heq]
  · exact fun h => ⟨_, h, rfl⟩

/-- A kind stands in lines and a part of one if it is one of the lines. -/
theorem infix_lines {k : Kind} {kinds : List Kind} {p : Data} (hp : Piece p) :
    k.token <:+: lines kinds ++ p ↔ k ∈ kinds := by
  induction kinds with
  | nil =>
      refine ⟨fun h => ?_, nofun⟩
      exact absurd (h.subset (List.mem_append_right _ (List.mem_singleton.mpr rfl))) hp.no_newline
  | cons j kinds ih =>
      have hsplit : lines (j :: kinds) ++ p = j.line ++ 10 :: (lines kinds ++ p) := by
        simp [Kind.token]
      rw [hsplit, Kind.token, infix_newline (line_no_newline k) (line_no_newline j), List.mem_cons]
      refine or_congr ⟨line_suffix, ?_⟩ ih
      rintro rfl
      exact List.suffix_rfl

/-- What is left of a line is recognised as none. -/
theorem infix_tail {k : Kind} {kinds : List Kind} {junk p : Data} (hjunk : Tail junk) (hp : Piece p) :
    k.token <:+: junk ++ (lines kinds ++ p) ↔ k ∈ kinds := by
  obtain ⟨j, x, hx, hj⟩ := hjunk
  rcases List.eq_nil_or_concat junk with rfl | ⟨y, b, rfl⟩
  · exact infix_lines hp
  · rw [List.concat_eq_append] at hj ⊢
    rw [Kind.token, ← List.append_assoc] at hj
    obtain ⟨hline, hb⟩ := List.append_inj' hj rfl
    obtain rfl := (List.cons.inj hb).1
    have hy : 10 ∉ y := fun hy => line_no_newline j (hline ▸ List.mem_append_right _ hy)
    have hnone : ¬ k.line <:+ y := by
      intro hsuffix
      have hlong := hsuffix.length_le
      obtain rfl := line_suffix (hsuffix.trans ⟨x, hline.symm⟩)
      have hshort := congrArg List.length hline
      have hpos := List.length_pos_of_ne_nil hx
      rw [List.length_append] at hshort
      omega
    have hsplit : y ++ [10] ++ (lines kinds ++ p) = y ++ 10 :: (lines kinds ++ p) := by simp
    rw [hsplit, Kind.token, infix_newline (line_no_newline k) hy, or_iff_right hnone]
    exact infix_lines hp

theorem Piece.ascii {d : Data} (h : Piece d) : ∀ b ∈ d, b.toNat < 0x80 := by
  obtain ⟨k, h⟩ := h
  exact fun b hb => line_ascii k b (h.subset hb)

theorem Piece.length_le {d : Data} (h : Piece d) : d.length ≤ 16 := by
  obtain ⟨k, h⟩ := h
  exact h.length_le.trans (line_length k)

theorem Tail.ascii {d : Data} (h : Tail d) : ∀ b ∈ d, b.toNat < 0x80 := by
  obtain ⟨k, x, -, h⟩ := h
  exact fun b hb => token_ascii k b (h ▸ List.mem_append_right _ hb)

theorem Tail.length_le {d : Data} (h : Tail d) : d.length ≤ 16 := by
  obtain ⟨k, x, hx, h⟩ := h
  have hlength := congrArg List.length h
  have hline := line_length k
  have hpos := List.length_pos_of_ne_nil hx
  rw [Kind.token, List.length_append, List.length_append, List.length_singleton] at hlength
  omega

theorem lines_ascii (kinds : List Kind) : ∀ b ∈ lines kinds, b.toNat < 0x80 := by
  intro b hb
  obtain ⟨k, -, hk⟩ := List.mem_flatMap.mp hb
  exact token_ascii k b hk

/-- **What the handler recognises**, and what it keeps: the lines that are there as a whole; and all,
if there is none. -/
theorem receive_lines {app : App} {chunk junk p : Data} {kinds : List Kind} (uptime : Nat)
    (hjunk : Tail junk) (hp : Piece p) (h : app.inputReply ++ chunk = junk ++ (lines kinds ++ p)) :
    (∀ k, k ∈ (app.receive uptime chunk).1 ↔ k ∈ kinds) ∧
      (app.receive uptime chunk).2.inputReply = if kinds = [] then junk ++ p else [] := by
  have hascii : ∀ b ∈ junk ++ (lines kinds ++ p), b.toNat < 0x80 := by
    simp only [List.forall_mem_append]
    exact ⟨hjunk.ascii, lines_ascii kinds, hp.ascii⟩
  have hkinds : ∀ k, k ∈ (app.receive uptime chunk).1 ↔ k ∈ kinds := by
    intro k
    rw [App.receive, h]
    dsimp only
    have hmem : k ∈ [Kind.probe, Kind.applied, Kind.ready] := by cases k <;> decide
    rw [List.mem_filter, contains_iff hascii, infix_tail hjunk hp, and_iff_right hmem]
  refine ⟨hkinds, ?_⟩
  have hnil : (app.receive uptime chunk).1 = [] ↔ kinds = [] := by
    simp only [List.eq_nil_iff_forall_not_mem, hkinds]
  have hshort : (app.inputReply ++ chunk).length ≤ 256 ∨ (app.receive uptime chunk).1 ≠ [] := by
    by_cases hnone : kinds = []
    · left
      have hjunk' := hjunk.length_le
      have hp' := hp.length_le
      have hempty : (lines kinds).length = 0 := by rw [hnone]; rfl
      rw [h, List.length_append, List.length_append]
      omega
    · exact .inr fun hout => hnone (hnil.mp hout)
  rw [App.receive_reply uptime chunk app hshort, if_congr hnil rfl rfl, h]
  split
  · next hnone => rw [hnone]; rfl
  · rfl

/-! ### The stream -/

/-- How many lines end in a chunk. -/
def ends (chunk : Data) : Nat := chunk.count 10

/-- No line ends in the start of one. -/
theorem Start.ends {d : Data} (h : Start d) : ends d = 0 := List.count_eq_zero.mpr h.piece.no_newline

/-- The first bytes of the stream: whole lines, and the start of the next. -/
theorem split_lines {d r : Data} {kinds : List Kind} (h : d ++ r = lines kinds) :
    ∃ p, Start p ∧ d = lines (kinds.take (ends d)) ++ p ∧ p ++ r = lines (kinds.drop (ends d)) ∧
      (kinds.take (ends d)).length = ends d := by
  induction kinds generalizing d with
  | nil =>
      obtain ⟨rfl, rfl⟩ := List.append_eq_nil_iff.mp h
      exact ⟨[], start_nil, rfl, rfl, rfl⟩
  | cons k kinds ih =>
      rw [lines_cons] at h
      obtain ⟨a, ha, rfl⟩ | ⟨c, rfl, hc⟩ := List.append_eq_append_iff.mp h
      · rcases List.eq_nil_or_concat a with rfl | ⟨b, x, rfl⟩
        · rw [List.append_nil] at ha
          have hone : ends d = 1 := by rw [← ha]; cases k <;> decide
          refine ⟨[], start_nil, ?_, ?_, ?_⟩ <;> rw [hone]
          · rw [List.append_nil, ← ha, List.take_succ_cons, List.take_zero, lines_cons]
            exact (List.append_nil _).symm
          · rfl
          · rfl
        · have hp : Start d := by
            rw [Kind.token, List.concat_eq_append, ← List.append_assoc] at ha
            exact ⟨k, b, (List.append_inj' ha rfl).1.symm⟩
          refine ⟨d, hp, ?_, ?_, ?_⟩ <;> rw [hp.ends]
          · rfl
          · exact h
          · rfl
      · have hends : ends (k.token ++ c) = ends c + 1 := by
          have hone : ends k.token = 1 := by cases k <;> decide
          rw [ends] at hone ⊢
          rw [List.count_append, hone, Nat.add_comm]
          rfl
        obtain ⟨p, hp, hd, hr, hlength⟩ := ih hc.symm
        refine ⟨p, hp, ?_, ?_, ?_⟩ <;> rw [hends]
        · rw [List.take_succ_cons, lines_cons, List.append_assoc, ← hd]
        · exact hr
        · rw [List.take_succ_cons, List.length_cons, hlength]

/-- What the handler has, of a stream of which these lines are to come, and these bytes; and whether
the first of the lines is torn. -/
inductive Waiting (kinds : List Kind) (buffer r : Data) : Bool → Prop where
  | whole {junk p : Data} (hjunk : Tail junk) (hp : Start p) (hbuffer : buffer = junk ++ p)
      (h : p ++ r = lines kinds) : Waiting kinds buffer r false
  | torn {lost : Data} (hlost : lost ≠ []) (hstart : Start (lost ++ buffer))
      (h : lost ++ buffer ++ r = lines kinds) : Waiting kinds buffer r true

/-- A chunk tears a line if it ends within one and completes one that is not torn. -/
def tear (torn : Bool) (chunk : Data) : Bool :=
  if ends chunk = 0 then torn else chunk.getLast? ≠ some 10 && (2 ≤ ends chunk || !torn)

/-- If the first line is torn, one like it is among the other lines. -/
def Covered (torn : Bool) : List Kind → Prop
  | [] => True
  | first :: later => torn = true → first ∈ later

instance (torn : Bool) (kinds : List Kind) : Decidable (Covered torn kinds) := by
  cases kinds <;> unfold Covered <;> infer_instance

/-- The chunk ends where a line does. -/
theorem last_newline {front chunk p : Data} {kinds : List Kind} (h : front ++ chunk = lines kinds ++ p)
    (hp : Start p) (hends : ends chunk ≠ 0) (hkinds : kinds ≠ []) : chunk.getLast? = some 10 ↔ p = [] := by
  have hchunk : chunk ≠ [] := by
    rintro rfl
    exact hends rfl
  have hlast := congrArg List.getLast? h
  rw [List.getLast?_append_of_ne_nil _ hchunk] at hlast
  rw [hlast]
  by_cases hnil : p = []
  · rw [hnil, List.append_nil, eq_self, iff_true]
    obtain ⟨us, k, rfl⟩ : ∃ us k, kinds = us ++ [k] := ⟨_, _, (List.dropLast_append_getLast hkinds).symm⟩
    have hline : lines (us ++ [k]) = lines us ++ k.line ++ [10] := by simp [lines, Kind.token]
    rw [hline, List.getLast?_concat]
  · refine iff_of_false (fun hten => ?_) hnil
    rw [List.getLast?_append_of_ne_nil _ hnil] at hten
    exact hp.piece.no_newline (List.mem_of_getLast? hten)

/-- What the handler has after a chunk with whole lines, or without. -/
theorem waiting_after {app : App} {chunk junk p r : Data} {us vs : List Kind} (uptime : Nat)
    (hjunk : Tail junk) (hp : Start p) (h : app.inputReply ++ chunk = junk ++ (lines us ++ p))
    (hr : p ++ r = lines vs) :
    Waiting vs (app.receive uptime chunk).2.inputReply r (decide (us ≠ [] ∧ p ≠ [])) := by
  have hreply := (receive_lines uptime hjunk hp.piece h).2
  by_cases hus : us = []
  · rw [decide_eq_false fun hboth => hboth.1 hus]
    exact .whole hjunk hp (by rw [hreply, if_pos hus]) hr
  · rw [if_neg hus] at hreply
    by_cases hnil : p = []
    · rw [decide_eq_false fun hboth => hboth.2 hnil, hreply]
      exact .whole tail_nil hp (by rw [hnil]; rfl) hr
    · rw [decide_eq_true ⟨hus, hnil⟩, hreply]
      exact .torn hnil (by rwa [List.append_nil]) (by rwa [List.append_nil])

/-- With a line in front of what is to come, the chunk tears the next one as the claim on it says. -/
theorem tear_eq {front chunk p : Data} {first : Kind} {later : List Kind} {torn : Bool}
    (h : front ++ chunk = lines (first :: later) ++ p) (hp : Start p)
    (hends : ends chunk = later.length + 1) :
    tear torn chunk = decide (p ≠ [] ∧ (later ≠ [] ∨ torn = false)) := by
  have hne : ends chunk ≠ 0 := by omega
  have hlast := last_newline h hp hne (List.cons_ne_nil _ _)
  have hmore : 2 ≤ ends chunk ↔ later ≠ [] := by
    rw [hends, ← List.length_pos_iff]
    omega
  rw [tear, if_neg hne, Bool.eq_iff_iff]
  simp [hlast, hmore]

/-- What is left of the first line, where its start was lost. -/
theorem tail_of_lost {lost rest d : Data} {first : Kind} (hlost : lost ≠ []) (hpiece : Piece lost)
    (h : lost ++ d = first.token ++ rest) : ∃ junk, Tail junk ∧ d = junk ++ rest := by
  obtain ⟨a, ha, hd⟩ | ⟨c, hc, -⟩ := List.append_eq_append_iff.mp h
  · exact ⟨a, ⟨first, lost, hlost, ha⟩, hd⟩
  · refine absurd ?_ hpiece.no_newline
    rw [hc]
    exact List.mem_append_left _ (List.mem_append_right _ (List.mem_singleton.mpr rfl))

/-- A chunk in which no line is torn recognises each line that ends in it. -/
theorem whole_step {app : App} {kinds : List Kind} {chunk r junk p₀ : Data} (uptime : Nat)
    (hjunk : Tail junk) (hp₀ : Start p₀) (hbuffer : app.inputReply = junk ++ p₀)
    (h : p₀ ++ (chunk ++ r) = lines kinds) :
    (∀ k ∈ kinds.take (ends chunk), k ∈ (app.receive uptime chunk).1) ∧
      Waiting (kinds.drop (ends chunk)) (app.receive uptime chunk).2.inputReply r (tear false chunk) := by
  rw [← List.append_assoc] at h
  obtain ⟨p, hp, hd, hr, hlength⟩ := split_lines h
  have hends : ends (p₀ ++ chunk) = ends chunk := by
    have hzero := hp₀.ends
    rw [ends] at hzero ⊢
    rw [List.count_append, hzero, Nat.zero_add]
    rfl
  rw [hends] at hd hr hlength
  have hall : app.inputReply ++ chunk = junk ++ (lines (kinds.take (ends chunk)) ++ p) := by
    rw [hbuffer, List.append_assoc, hd]
  refine ⟨fun k hk => ((receive_lines uptime hjunk hp.piece hall).1 k).mpr hk, ?_⟩
  have hafter := waiting_after uptime hjunk hp hall hr
  generalize kinds.take (ends chunk) = us at hd hlength hafter
  cases us with
  | nil =>
      have hzero : ends chunk = 0 := hlength.symm
      rw [tear, if_pos hzero]
      simpa using hafter
  | cons first later =>
      rw [tear_eq hd hp hlength.symm]
      simpa using hafter

/-- A chunk that completes a torn line recognises all that end in it exactly when the torn one is
covered. -/
theorem torn_step {app : App} {kinds : List Kind} {chunk r lost : Data} (uptime : Nat) (hlost : lost ≠ [])
    (hstart : Start (lost ++ app.inputReply)) (h : lost ++ app.inputReply ++ (chunk ++ r) = lines kinds) :
    ((∀ k ∈ kinds.take (ends chunk), k ∈ (app.receive uptime chunk).1) ↔
        Covered true (kinds.take (ends chunk))) ∧
      Waiting (kinds.drop (ends chunk)) (app.receive uptime chunk).2.inputReply r (tear true chunk) := by
  rw [← List.append_assoc] at h
  obtain ⟨p, hp, hd, hr, hlength⟩ := split_lines h
  have hends : ends (lost ++ app.inputReply ++ chunk) = ends chunk := by
    have hzero := hstart.ends
    rw [ends] at hzero ⊢
    rw [List.count_append, hzero, Nat.zero_add]
    rfl
  rw [hends] at hd hr hlength
  generalize kinds.take (ends chunk) = us at hd hlength
  cases us with
  | nil =>
      have hzero : ends chunk = 0 := hlength.symm
      have hp' : Start (lost ++ (app.inputReply ++ chunk)) := by
        rw [← List.append_assoc, hd]
        exact hp
      have hpiece : Piece (app.inputReply ++ chunk) := by
        obtain ⟨k, hk⟩ := hp'
        exact ⟨k, (List.suffix_append _ _).isInfix.trans hk.isInfix⟩
      have hreply := (@receive_lines app chunk [] _ [] uptime tail_nil hpiece rfl).2
      rw [if_pos rfl, List.nil_append] at hreply
      refine ⟨iff_of_true nofun trivial, ?_⟩
      rw [tear, if_pos hzero, hreply]
      refine .torn hlost hp' ?_
      rw [← List.append_assoc, hd]
      exact hr
  | cons first later =>
      have hpiece : Piece lost := by
        obtain ⟨k, hk⟩ := hstart
        exact ⟨k, ((List.prefix_append _ _).trans hk).isInfix⟩
      have hd' : lost ++ (app.inputReply ++ chunk) = first.token ++ (lines later ++ p) := by
        rw [← List.append_assoc, hd, lines_cons, List.append_assoc]
      obtain ⟨junk, hjunk, hrest⟩ := tail_of_lost hlost hpiece hd'
      have hkinds := (receive_lines uptime hjunk hp.piece hrest).1
      refine ⟨?_, ?_⟩
      · rw [List.forall_mem_cons, hkinds]
        exact ⟨fun hall _ => hall.1, fun hcovered => ⟨hcovered rfl, fun k hk => (hkinds k).mpr hk⟩⟩
      · have hafter := waiting_after uptime hjunk hp hrest hr
        rw [tear_eq hd hp hlength.symm]
        simpa [and_comm] using hafter

/-- **A chunk.**  Its lines are recognised if the torn one, where there is one, is covered; and it
tears the next line or does not. -/
theorem waiting_step {app : App} {kinds : List Kind} {chunk r : Data} {torn : Bool} (uptime : Nat)
    (hw : Waiting kinds app.inputReply (chunk ++ r) torn) :
    ((∀ k ∈ kinds.take (ends chunk), k ∈ (app.receive uptime chunk).1) ↔
        Covered torn (kinds.take (ends chunk))) ∧
      Waiting (kinds.drop (ends chunk)) (app.receive uptime chunk).2.inputReply r (tear torn chunk) := by
  cases hw with
  | whole hjunk hp hbuffer h =>
      obtain ⟨hall, hafter⟩ := whole_step uptime hjunk hp hbuffer h
      refine ⟨iff_of_true hall ?_, hafter⟩
      cases kinds.take (ends chunk) with
      | nil => trivial
      | cons => exact nofun
  | torn hlost hstart h => exact torn_step uptime hlost hstart h

/-! ### Every splitting -/

/-- The handler sets the deadline of the acknowledgement. -/
def Refreshes (app : App) (uptime : Nat) (chunk : Data) (k : Kind) : Prop :=
  k ∈ (app.receive uptime chunk).1 ∧ (app.receive uptime chunk).2.deadline k = uptime + k.period

/-- A deadline is set when the branch of its kind is taken. -/
theorem refreshes_iff {app : App} {uptime : Nat} {chunk : Data} {k : Kind} :
    Refreshes app uptime chunk k ↔ k ∈ (app.receive uptime chunk).1 := by
  refine and_iff_left_of_imp fun h => ?_
  rw [App.receive_deadline, if_pos h]

/-- Every line is recognised when the chunk comes that completes it.  The chunks stand with the uptime
at which they are handled. -/
def Recognised : App → List Kind → List (Nat × Data) → Prop
  | _, _, [] => True
  | app, kinds, (uptime, chunk) :: chunks =>
      (∀ k ∈ kinds.take (ends chunk), Refreshes app uptime chunk k) ∧
        Recognised (app.receive uptime chunk).2 (kinds.drop (ends chunk)) chunks

/-- Every torn line is covered by one that the same chunk completes. -/
def Whole : Bool → List Kind → List Data → Prop
  | _, _, [] => True
  | torn, kinds, chunk :: chunks =>
      Covered torn (kinds.take (ends chunk)) ∧ Whole (tear torn chunk) (kinds.drop (ends chunk)) chunks

instance : ∀ torn kinds chunks, Decidable (Whole torn kinds chunks)
  | _, _, [] => .isTrue trivial
  | torn, kinds, chunk :: chunks =>
      have := instDecidableWhole (tear torn chunk) (kinds.drop (ends chunk)) chunks
      inferInstanceAs (Decidable (_ ∧ _))

/-- All lines are recognised exactly when every torn one is covered. -/
theorem recognised_waiting {chunks : List (Nat × Data)} {app : App} {kinds : List Kind} {torn : Bool}
    (hw : Waiting kinds app.inputReply (chunks.map Prod.snd).flatten torn) :
    Recognised app kinds chunks ↔ Whole torn kinds (chunks.map Prod.snd) := by
  induction chunks generalizing app kinds torn with
  | nil => exact Iff.rfl
  | cons x chunks ih =>
      obtain ⟨uptime, chunk⟩ := x
      rw [List.map_cons, List.flatten_cons] at hw
      obtain ⟨hnow, hlater⟩ := waiting_step uptime hw
      simp only [Recognised, refreshes_iff]
      exact and_congr hnow (ih hlater)

/-- **The splittings that the handler bears**: every acknowledgement is recognised when it is complete
exactly if every torn one is followed, in the chunk that completes it, by one of its kind. -/
theorem recognised_iff (app : App) (kinds : List Kind) (chunks : List (Nat × Data))
    (happ : app.inputReply = []) (hchunks : (chunks.map Prod.snd).flatten = lines kinds) :
    Recognised app kinds chunks ↔ Whole false kinds (chunks.map Prod.snd) :=
  recognised_waiting (.whole tail_nil start_nil happ hchunks)

def opened : App := ⟨[], 0, 0, 0⟩

/-- The line that is torn is followed by another of its kind. -/
theorem recognised_covered :
    Recognised opened [.ready, .ready, .ready]
      [(0, Kind.ready.token ++ [0x4c, 0x48]), (1, Kind.ready.token.drop 2 ++ Kind.ready.token)] :=
  (recognised_iff opened [.ready, .ready, .ready] _ rfl rfl).mpr (by decide)

/-- An acknowledgement whose start comes behind another one. -/
def tornChunks : List (Nat × Data) :=
  [(0, Kind.ready.token ++ Kind.applied.token.take 9), (1, Kind.applied.token.drop 9)]

/-- It is lost. -/
theorem applied_lost :
    (∀ x ∈ tornChunks, x.2.length ≤ 256) ∧
      (tornChunks.map Prod.snd).flatten = lines [.ready, .applied] ∧
      ¬ Recognised opened [.ready, .applied] tornChunks := by
  refine ⟨by decide, rfl, ?_⟩
  rw [recognised_waiting (.whole tail_nil start_nil rfl rfl)]
  decide

end Ashacky.Input.Replies
