import Mathlib.Data.List.TakeWhile
import Ashacky.Support.Reader
import Ashacky.Control.Correlation

/-!
# Control — framing

The two ends cut the stream into lines, each in its own way: `Frames.feed` collects the parts of
`splitlines` and counts the newline, `ControlChannel.receive` goes byte by byte and does not.  Both
are readers, and end at the first line they reject.

* `Frames.feedAll_lines`, `ControlChannel.receiveAll_lines`: however the stream is cut into chunks,
  each end reads it line by line.
* `Frames.many_line`, `ControlChannel.many_receiveFramed`: a line is rejected for its size when it
  has more than 32768 bytes, at both ends.
* `control_framing`: so each end reads what the other has written, and they agree on every stream of
  objects.
-/

namespace Ashacky.Control
open Ashacky.Support

/-- The bytes of the lines, each with its newline. -/
def streamOf (lines : List Data) : Data := (lines.map (· ++ [10])).flatten

/-! ### The guest -/

theorem splitlines_ne_nil (line data : Data) : ∀ part ∈ splitlines line data, part ≠ [] := by
  induction data generalizing line with
  | nil =>
      rw [splitlines]
      split
      · simp
      · rename_i he
        simpa using he
  | cons c rest ih =>
      rw [splitlines]
      split
      · intro part hpart
        rcases List.mem_cons.mp hpart with rfl | hpart
        · simp
        · exact ih [] part hpart
      · exact ih _

namespace Frames

variable (P : Python)

/-- The body of the loop of `feed`, for one part. -/
def part (part buffer : Data) : Reading Object Raised Data :=
  match Control.feed P buffer part with
  | .ok (buffer, value) => (value.toList, .ok buffer)
  | .error e => ([], .error e)

/-- `Frames.feed`: the objects it yields, and the buffer it leaves or what it raises. -/
def feed (data buffer : Data) : Reading Object Raised Data :=
  many (part P) (splitlines [] data) buffer

/-- One chunk after the other, until `feed` raises. -/
def feedAll (chunks : List Data) (buffer : Data) : Reading Object Raised Data :=
  many (feed P) chunks buffer

/-- A line of any length, as a whole. -/
def line (l _buffer : Data) : Reading Object Raised Data :=
  if l.length ≤ maxFrame then
    match P.loads (l ++ [10]) with
    | .ok (.obj value) => ([value], .ok [])
    | .ok _ => ([], .error .caught)
    | .error e => ([], .error e)
  else ([], .error .caught)

variable {P}

theorem part_append (buffer u p : Data) : part P p (buffer ++ u) = part P (u ++ p) buffer := by
  rw [part, part, Control.feed, Control.feed, List.append_assoc]

/-- A part may be taken byte by byte. -/
theorem part_eq_many {p : Data} (hp : p ≠ []) (hn : 10 ∉ p.dropLast) (buffer : Data) :
    part P p buffer = many (fun c => part P [c]) p buffer := by
  induction p generalizing buffer with
  | nil => exact absurd rfl hp
  | cons c p ih =>
      cases p with
      | nil => rw [many_singleton]
      | cons d p =>
          rw [List.dropLast_cons_cons, List.mem_cons, not_or] at hn
          obtain ⟨hc, hn⟩ := hn
          rw [many_cons]
          by_cases hlong : (buffer ++ [c]).length > maxFrame + 1
          · have hwhole : (buffer ++ c :: d :: p).length > maxFrame + 1 := by
              simp only [List.length_append, List.length_cons, List.length_nil] at hlong ⊢
              omega
            have hfirst : part P [c] buffer = ([], .error .caught) := by
              rw [part, Control.feed, if_pos hlong]
            rw [hfirst, part, Control.feed, if_pos hwhole]
            rfl
          · have hbyte : part P [c] buffer = ([], .ok (buffer ++ [c])) := by
              rw [part, Control.feed, if_neg hlong, if_neg (by simpa using Ne.symm hc)]
              rfl
            rw [hbyte, Reading.ok_andThen, ← ih (by simp) hn, part_append]
            rfl

/-- `feed` may take its data byte by byte. -/
theorem feed_eq_many (data buffer : Data) :
    feed P data buffer = many (fun c => part P [c]) data buffer := by
  obtain ⟨hflat, hparts⟩ := Broker.splitlines_spec (List.not_mem_nil (a := 10)) data
  have hcongr : many (part P) (splitlines [] data) buffer =
      many (many fun c => part P [c]) (splitlines [] data) buffer :=
    many_congr (I := fun _ => True)
      (fun p hp b _ => part_eq_many (splitlines_ne_nil [] data p hp) (hparts p hp) b)
      (fun _ _ _ _ _ _ _ => trivial) trivial
  rw [feed, hcongr, many_many, hflat, List.nil_append]

/-- **The cuts between the chunks do not matter.** -/
theorem feedAll_eq (chunks : List Data) (buffer : Data) :
    feedAll P chunks buffer = feed P chunks.flatten buffer := by
  rw [feedAll, feed_eq_many, ← many_many]
  exact many_congr (I := fun _ => True) (fun _ _ b _ => feed_eq_many _ b)
    (fun _ _ _ _ _ _ _ => trivial) trivial

theorem part_line (l : Data) : part P (l ++ [10]) [] = line P l [] := by
  rw [part, Control.feed, line]
  by_cases hl : l.length ≤ maxFrame
  · have hnot : ¬ ([] ++ (l ++ [10])).length > maxFrame + 1 := by simpa using hl
    rw [if_neg hnot, if_pos (by simp), if_pos hl, List.nil_append]
    cases P.loads (l ++ [10]) with
    | error e => rfl
    | ok j => cases j <;> rfl
  · have hlong : ([] ++ (l ++ [10])).length > maxFrame + 1 := by
      simp only [List.nil_append, List.length_append, List.length_singleton]
      omega
    rw [if_pos hlong, if_neg hl]

theorem line_buffer {l buffer rest : Data} {out : List Object}
    (h : line P l buffer = (out, .ok rest)) : rest = [] := by
  rw [line] at h
  split at h
  · split at h
    · cases h
      rfl
    · cases h
    · cases h
  · cases h

/-- **The guest reads the stream line by line**, however it is cut. -/
theorem feedAll_lines {lines chunks : List Data} (hlines : ∀ l ∈ lines, 10 ∉ l)
    (hchunks : chunks.flatten = streamOf lines) :
    feedAll P chunks [] = many (line P) lines [] := by
  have hcongr : many (fun l => many (fun c => part P [c]) (l ++ [10])) lines [] =
      many (line P) lines [] := by
    refine (many_congr (I := fun b => b = []) ?_ ?_ rfl).symm
    · rintro l hl b rfl
      rw [← part_line, part_eq_many (by simp) (by simpa using hlines l hl)]
    · intro l _ b out rest _ h
      exact line_buffer h
  rw [feedAll_eq, feed_eq_many, hchunks, streamOf, ← many_many, many_map, hcongr]

/-- **A line is rejected when it is too long**, if each is an object. -/
theorem many_line {lines : List Data}
    (hlines : ∀ l ∈ lines, ∃ v, P.loads (l ++ [10]) = .ok (.obj v)) :
    ∃ values, List.Forall₂ (fun l v => P.loads (l ++ [10]) = .ok (.obj v))
        (lines.takeWhile (·.length ≤ maxFrame)) values ∧
      many (line P) lines [] = (values,
        if ∀ l ∈ lines, l.length ≤ maxFrame then .ok [] else .error .caught) := by
  induction lines with
  | nil => exact ⟨[], .nil, by simp⟩
  | cons l lines ih =>
      obtain ⟨v, hv⟩ := hlines l List.mem_cons_self
      rw [many_cons, line]
      by_cases hl : l.length ≤ maxFrame
      · obtain ⟨values, hvalues, hmany⟩ := ih fun l hl => hlines l (List.mem_cons_of_mem _ hl)
        refine ⟨v :: values, ?_, ?_⟩
        · rw [List.takeWhile_cons_of_pos (by simpa using hl)]
          exact .cons hv hvalues
        · rw [if_pos hl, hv]
          simp [hmany, hl]
      · refine ⟨[], ?_, ?_⟩
        · rw [List.takeWhile_cons_of_neg (by simpa using hl)]
          exact .nil
        · simp [hl]

/-- After any call that does not raise, the buffer is bounded. -/
theorem feedAll_buffer {chunks : List Data} {buffer rest : Data} {out : List Object}
    (hb : buffer.length ≤ maxFrame + 1) (h : feedAll P chunks buffer = (out, .ok rest)) :
    rest.length ≤ maxFrame + 1 := by
  rw [feedAll_eq, feed_eq_many] at h
  refine many_invariant (I := fun b => b.length ≤ maxFrame + 1) ?_ hb h
  intro c b out rest _ hpart
  rw [part, Control.feed] at hpart
  split at hpart
  · rename_i buffer value hfeed
    cases hpart
    split at hfeed
    · cases hfeed
    · rename_i hlen
      split at hfeed
      · split at hfeed
        · cases hfeed
          exact Nat.zero_le _
        · cases hfeed
        · cases hfeed
      · cases hfeed
        exact Nat.not_lt.mp hlen
  · cases hpart

end Frames

/-! ### The host -/

/-- Why `receive` fails: a line has too many bytes, or what it says is refused. -/
inductive Rejection where
  | oversize
  | refused
  deriving DecidableEq

/-- A line that `receive` has completed, with the object of version 1 on it, which goes to `handle`. -/
structure Taken where
  line : Data
  value : Option Object

/-- The object of version 1 on a line. -/
def objectOf (F : Foundation) (line : Data) : Option Object :=
  ((F.jsonObject line).bind Json.object).filter fun value =>
    (value.lookup "version").bind integer = some 1

namespace ControlChannel

variable (F : Foundation) (token : String)

/-- `receive` reads, and ends in a channel that has failed or goes on. -/
abbrev Received := Reading Taken (Rejection × ControlChannel) ControlChannel

/-- The channel at the end. -/
def Received.channel (r : Received) : ControlChannel :=
  match r.2 with
  | .ok c => c
  | .error (_, c) => c

/-- A completed line is handled, or the channel fails. -/
def takeLine (line : Data) (c : ControlChannel) : Received :=
  ([⟨line, objectOf F line⟩],
    match c.receiveLine F token line with
    | some c' => .ok c'
    | none => .error (.refused, c.fail))

/-- The body of the loop of `receive`. -/
def receiveByte (byte : UInt8) (c : ControlChannel) : Received :=
  if byte = 10 then takeLine F token c.buffer { c with buffer := [] }
  else if c.buffer.length < maximumFrame then ([], .ok { c with buffer := c.buffer ++ [byte] })
  else ([], .error (.oversize, c.fail))

/-- One chunk after the other, until `receive` fails. -/
def receiveAll (chunks : List Data) (c : ControlChannel) : Received :=
  many (many (receiveByte F token)) chunks c

/-- A line of any length, as a whole. -/
def receiveFramed (line : Data) (c : ControlChannel) : Received :=
  if line.length ≤ maximumFrame then takeLine F token line c
  else ([], .error (.oversize, c.fail))

variable {F token}

/-- `receive` is this loop. -/
theorem receive_eq (data : Data) (c : ControlChannel) :
    c.receive F token data = Received.channel (many (receiveByte F token) data c) := by
  induction data generalizing c with
  | nil => rfl
  | cons byte data ih =>
      rw [receive, many_cons, receiveByte]
      by_cases hb : byte = 10
      · rw [if_pos hb, if_pos hb, takeLine]
        cases ControlChannel.receiveLine F token c.buffer { c with buffer := [] } with
        | none => rfl
        | some c' => exact ih c'
      · rw [if_neg hb, if_neg hb]
        by_cases hlen : c.buffer.length < maximumFrame
        · rw [if_pos hlen, if_pos hlen]
          exact ih _
        · rw [if_neg hlen, if_neg hlen]
          rfl

theorem receiveLine_eq (line : Data) (c : ControlChannel) :
    c.receiveLine F token line = (objectOf F line).bind (c.handle F token) := by
  rw [receiveLine, objectOf]
  cases (F.jsonObject line).bind Json.object with
  | none => rfl
  | some value =>
      by_cases hv : (value.lookup "version").bind integer = some 1
      · simp [Option.filter, hv]
      · simp [Option.filter, hv]

/-- A line that is handled leaves no bytes. -/
theorem buffer_of_receiveLine {line : Data} {c c' : ControlChannel} (hc : c.buffer = [])
    (h : c.receiveLine F token line = some c') : c'.buffer = [] := by
  rw [receiveLine_eq] at h
  obtain ⟨value, -, hhandle⟩ := Option.bind_eq_some_iff.mp h
  rcases (handle_continues F hhandle).2 with hb | hb
  · rw [hb, hc]
  · exact hb

/-- The bytes of a line and its newline. -/
theorem many_line {line : Data} (hn : 10 ∉ line) {c : ControlChannel}
    (hc : c.buffer.length ≤ maximumFrame) :
    many (receiveByte F token) (line ++ [10]) c =
      receiveFramed F token (c.buffer ++ line) { c with buffer := [] } := by
  induction line generalizing c with
  | nil => rw [List.nil_append, many_singleton, receiveByte, if_pos rfl, List.append_nil,
      receiveFramed, if_pos hc]
  | cons byte line ih =>
      rw [List.mem_cons, not_or] at hn
      rw [List.cons_append, many_cons, receiveByte, if_neg (Ne.symm hn.1)]
      by_cases hlen : c.buffer.length < maximumFrame
      · rw [if_pos hlen, Reading.ok_andThen, ih hn.2 (by simpa using Nat.succ_le_of_lt hlen)]
        simp
      · have hlong : ¬ (c.buffer ++ byte :: line).length ≤ maximumFrame := by
          simp only [List.length_append, List.length_cons]
          omega
        rw [if_neg hlen, receiveFramed, if_neg hlong]
        rfl

/-- **The host reads the stream line by line**, however it is cut. -/
theorem receiveAll_lines {lines chunks : List Data} (hlines : ∀ l ∈ lines, 10 ∉ l)
    (hchunks : chunks.flatten = streamOf lines) {c : ControlChannel} (hc : c.buffer = []) :
    receiveAll F token chunks c = many (receiveFramed F token) lines c := by
  rw [receiveAll, many_many, hchunks, streamOf, ← many_many, many_map]
  refine (many_congr (I := fun c => c.buffer = []) ?_ ?_ hc).symm
  · intro l hl c hc
    have hempty : { c with buffer := [] } = c := by rw [← hc]
    rw [many_line (hlines l hl) (by simp [hc]), hc, List.nil_append, hempty]
  · intro l _ c out c' hc h
    rw [receiveFramed] at h
    split at h
    · rw [takeLine] at h
      split at h
      · rename_i hline
        cases h
        exact buffer_of_receiveLine hc hline
      · cases h
    · cases h

/-- What reading lines comes to: all are taken; or those before the first that is too long; or those
up to one that is refused for what it says. -/
def Framed (F : Foundation) (token : String) (lines : List Data) (r : Received) : Prop :=
  match r.2 with
  | .ok _ => r.1.map Taken.line = lines ∧ ∀ l ∈ lines, l.length ≤ maximumFrame
  | .error (.oversize, _) =>
      r.1.map Taken.line = lines.takeWhile (·.length ≤ maximumFrame) ∧
        ¬ ∀ l ∈ lines, l.length ≤ maximumFrame
  | .error (.refused, _) =>
      r.1.map Taken.line <+: lines.takeWhile (·.length ≤ maximumFrame) ∧
        ∃ t c, r.1.getLast? = some t ∧ t.value.bind (handle F token · c) = none

theorem many_receiveFramed (lines : List Data) (c : ControlChannel) :
    Framed F token lines (many (receiveFramed F token) lines c) ∧
      ∀ t ∈ (many (receiveFramed F token) lines c).1, t.value = objectOf F t.line := by
  induction lines generalizing c with
  | nil => simp [Framed]
  | cons l lines ih =>
      rw [many_cons, receiveFramed]
      by_cases hl : l.length ≤ maximumFrame
      · rw [if_pos hl, takeLine]
        have htake : (l :: lines).takeWhile (·.length ≤ maximumFrame) =
            l :: lines.takeWhile (·.length ≤ maximumFrame) :=
          List.takeWhile_cons_of_pos (by simpa using hl)
        cases hline : c.receiveLine F token l with
        | none =>
            rw [receiveLine_eq] at hline
            refine ⟨?_, by simp⟩
            simp only [Reading.error_andThen, Framed, htake]
            exact ⟨by simp, _, c, rfl, hline⟩
        | some c' =>
            obtain ⟨hframed, hvalues⟩ := ih c'
            refine ⟨?_, by simpa using hvalues⟩
            simp only [Reading.ok_andThen, Framed, htake] at hframed ⊢
            split at hframed
            · simpa [hl] using hframed
            · simpa [hl] using hframed
            · obtain ⟨hpre, t, c₁, hlast, hnone⟩ := hframed
              refine ⟨by simpa using hpre, t, c₁, ?_, hnone⟩
              rw [List.getLast?_append, hlast]
              rfl
      · rw [if_neg hl]
        refine ⟨?_, by simp⟩
        simp [Framed, hl]

/-- After any call, the buffer is bounded. -/
theorem receiveAll_buffer {chunks : List Data} {c c' : ControlChannel} {out : List Taken}
    (hc : c.buffer.length ≤ maximumFrame + 1)
    (h : receiveAll F token chunks c = (out, .ok c')) : c'.buffer.length ≤ maximumFrame + 1 := by
  rw [receiveAll, many_many] at h
  refine many_invariant (I := fun c => c.buffer.length ≤ maximumFrame + 1) ?_ hc h
  intro byte c out c' hc hbyte
  rw [receiveByte] at hbyte
  split at hbyte
  · rw [takeLine] at hbyte
    split at hbyte
    · rename_i hline
      cases hbyte
      rw [buffer_of_receiveLine rfl hline]
      exact Nat.zero_le _
    · cases hbyte
  · split at hbyte
    · rename_i hlen
      cases hbyte
      simp only [List.length_append, List.length_singleton]
      omega
    · cases hbyte

end ControlChannel

/-! ### What each end writes for the other -/

/-- The bytes that `enqueue` makes of the fields, if they fit a frame. -/
def frameLine (F : Foundation) (fields : Object) : Option Data :=
  match F.data (Object.set fields "version" (.int 1)) with
  | some bytes => if bytes.length ≤ maximumFrame then some (bytes ++ [10]) else none
  | none => none

/-- The libraries agree on the objects: each end reads what the other writes, and the host reads the
version as the integer it is. -/
structure Setting.Agrees (S : Setting) : Prop where
  toHost : ∀ {m x}, S.python.dumps true (.obj m) = .ok x → (S.toHost.read x).isSome
  toGuest : ∀ {m x}, S.foundation.data m = some x → (S.toGuest.read x).isSome
  one : S.toHost.cross (.int 1) = .int 1

section

variable {S : Setting}

theorem Exchange.reads_of_read {X : Exchange} {m v : Object} {x : Data} (hx : X.writes m x)
    (hv : X.read x = some v) : X.Reads m v :=
  X.behind (b := []) hx (by simp) hv

theorem Exchange.newline_notMem {X : Exchange} {m : Object} {x : Data} (hx : X.writes m x) :
    10 ∉ x :=
  fun h => (X.plain hx 10 h).2 rfl

theorem loads_of_read {l : Data} {v : Object} (h : S.toGuest.read l = some v) :
    S.python.loads (l ++ [10]) = .ok (.obj v) := by
  rw [S.toGuest_read] at h
  obtain ⟨j, hj, hobj⟩ := Option.bind_eq_some_iff.mp h
  cases hloads : S.python.loads (l ++ [10]) with
  | error e =>
      rw [hloads] at hj
      cases hj
  | ok j' =>
      rw [hloads] at hj
      cases hj
      rw [object_eq_some hobj]

theorem read_of_loads {l : Data} {v : Object} (h : S.python.loads (l ++ [10]) = .ok (.obj v)) :
    S.toGuest.read l = some v := by
  rw [S.toGuest_read, h]
  rfl

/-- A frame of the host, as the guest reads it. -/
theorem Setting.Agrees.frameLine_read (hS : S.Agrees) {m : Object} {x : Data}
    (h : frameLine S.foundation m = some x) :
    ∃ l v, x = l ++ [10] ∧ 10 ∉ l ∧ l.length ≤ maximumFrame ∧ S.toGuest.read l = some v ∧
      S.toGuest.Reads (Object.set m "version" (.int 1)) v := by
  rw [frameLine] at h
  split at h
  · rename_i l hl
    split at h
    · rename_i hlen
      have hw := S.toGuest_writes hl
      obtain ⟨v, hv⟩ := Option.isSome_iff_exists.mp (hS.toGuest hl)
      exact ⟨l, v, (Option.some.inj h).symm, Exchange.newline_notMem hw, hlen, hv,
        Exchange.reads_of_read hw hv⟩
    · cases h
  · cases h

/-- A frame of the guest, as the host reads it. -/
theorem Setting.Agrees.encode_read (hS : S.Agrees) {m : Object} {x : Data}
    (h : encode S.python m = .ok x) :
    ∃ l v, x = l ++ [10] ∧ 10 ∉ l ∧ l.length ≤ maximumFrame ∧ objectOf S.foundation l = some v ∧
      S.toHost.Reads (Object.set m "version" (.int 1)) v := by
  rw [encode] at h
  split at h
  · rename_i l hl
    split at h
    · cases h
    · rename_i hlen
      have hw := S.toHost_writes hl
      obtain ⟨v, hv⟩ := Option.isSome_iff_exists.mp (hS.toHost hl)
      have hreads := Exchange.reads_of_read hw hv
      have hversion : (v.lookup "version").bind integer = some 1 := by
        rw [hreads, Object.lookup_set, Option.map_some, hS.one]
        rfl
      refine ⟨l, v, (Except.ok.inj h).symm, Exchange.newline_notMem hw, Nat.not_lt.mp hlen, ?_,
        hreads⟩
      rw [S.toHost_read] at hv
      rw [objectOf, hv, Option.filter_some, if_pos (by simpa using hversion)]
  · cases h

/-- The lines of the frames, and the objects on them. -/
theorem lines_of_frames {W : Object → Data → Prop} {R : Data → Object → Prop}
    {T : Object → Object → Prop}
    (hW : ∀ {m x}, W m x → ∃ l v, x = l ++ [10] ∧ 10 ∉ l ∧ l.length ≤ maximumFrame ∧ R l v ∧ T m v)
    {fields : List Object} {frames : List Data} (h : List.Forall₂ W fields frames) :
    ∃ lines values, frames.flatten = streamOf lines ∧
      (∀ l ∈ lines, 10 ∉ l ∧ l.length ≤ maximumFrame ∧ ∃ v, R l v) ∧
      List.Forall₂ R lines values ∧ List.Forall₂ T fields values := by
  induction h with
  | nil => exact ⟨[], [], rfl, by simp, .nil, .nil⟩
  | cons hx _ ih =>
      obtain ⟨l, v, rfl, hn, hlen, hr, ht⟩ := hW hx
      obtain ⟨lines, values, hflat, hlines, hvalues, hfields⟩ := ih
      refine ⟨l :: lines, v :: values, ?_, ?_, .cons hr hvalues, .cons ht hfields⟩
      · simp [streamOf, hflat]
      · intro l' hl'
        rcases List.mem_cons.mp hl' with rfl | hl'
        · exact ⟨hn, hlen, v, hr⟩
        · exact hlines l' hl'

theorem takeWhile_eq_self {limit : Nat} {lines : List Data} (h : ∀ l ∈ lines, l.length ≤ limit) :
    lines.takeWhile (·.length ≤ limit) = lines := by
  rw [List.takeWhile_eq_self_iff]
  intro l hl
  simpa using h l hl

/-- Handing the objects of the lines on to `handle`: all of them, or those up to one it refuses. -/
def ControlChannel.Handed (F : Foundation) (token : String) (values : List Object)
    (r : Received) : Prop :=
  match r.2 with
  | .ok _ => r.1.map Taken.value = values.map some
  | .error (.oversize, _) => False
  | .error (.refused, _) =>
      r.1.map Taken.value <+: values.map some ∧
        ∃ t c, r.1.getLast? = some t ∧ t.value.bind (handle F token · c) = none

theorem ControlChannel.Framed.handed {F : Foundation} {token : String} {lines : List Data}
    {values : List Object} {r : Received} (h : Framed F token lines r)
    (hr : ∀ t ∈ r.1, t.value = objectOf F t.line) (hlen : ∀ l ∈ lines, l.length ≤ maximumFrame)
    (hvalues : List.Forall₂ (fun l v => objectOf F l = some v) lines values) :
    Handed F token values r := by
  have hobjects : lines.map (objectOf F) = values.map some := by
    clear hlen h
    induction hvalues with
    | nil => rfl
    | cons hv _ ih => rw [List.map_cons, List.map_cons, hv, ih]
  have hmap : r.1.map Taken.value = (r.1.map Taken.line).map (objectOf F) := by
    rw [List.map_map]
    exact List.map_congr_left hr
  rw [Framed, takeWhile_eq_self hlen] at h
  rw [Handed, hmap, ← hobjects]
  split at h
  · exact congrArg _ h.1
  · exact absurd hlen h.2
  · exact ⟨h.1.map _, h.2⟩

/-- **Framing.**  What one end writes, the other reads as it was written, however it is cut; on any
stream of objects both ends take the lines before the first of more than 32768 bytes and reject
that one; and what is left of a line is bounded. -/
theorem control_framing (S : Setting) (hS : S.Agrees) :
    (∀ (fields : List Object) (frames chunks : List Data),
      List.Forall₂ (fun m x => frameLine S.foundation m = some x) fields frames →
      chunks.flatten = frames.flatten →
      ∃ values, List.Forall₂ (fun m v => S.toGuest.Reads (Object.set m "version" (.int 1)) v)
          fields values ∧
        Frames.feedAll S.python chunks [] = (values, .ok [])) ∧
    (∀ (fields : List Object) (frames chunks : List Data) (c : ControlChannel),
      List.Forall₂ (fun m x => encode S.python m = .ok x) fields frames →
      chunks.flatten = frames.flatten → c.buffer = [] →
      ∃ values, List.Forall₂ (fun m v => S.toHost.Reads (Object.set m "version" (.int 1)) v)
          fields values ∧
        ControlChannel.Handed S.foundation S.token values
          (ControlChannel.receiveAll S.foundation S.token chunks c)) ∧
    (∀ lines chunks : List Data, (∀ l ∈ lines, 10 ∉ l) → chunks.flatten = streamOf lines →
      ((∀ l ∈ lines, (S.toGuest.read l).isSome) →
        ∃ values, List.Forall₂ (fun l v => S.toGuest.read l = some v)
            (lines.takeWhile (·.length ≤ 32768)) values ∧
          Frames.feedAll S.python chunks [] = (values,
            if ∀ l ∈ lines, l.length ≤ 32768 then .ok [] else .error .caught)) ∧
      ∀ c : ControlChannel, c.buffer = [] →
        ControlChannel.receiveAll S.foundation S.token chunks c =
          many (ControlChannel.receiveFramed S.foundation S.token) lines c ∧
        ControlChannel.Framed S.foundation S.token lines
          (ControlChannel.receiveAll S.foundation S.token chunks c)) ∧
    (∀ chunks values rest, Frames.feedAll S.python chunks [] = (values, .ok rest) →
      rest.length ≤ 32769) ∧
    (∀ chunks (c : ControlChannel), c.buffer.length ≤ 32769 →
      ∀ taken c', ControlChannel.receiveAll S.foundation S.token chunks c = (taken, .ok c') →
        c'.buffer.length ≤ 32769) ∧
    ∀ data (c : ControlChannel), c.receive S.foundation S.token data =
      ControlChannel.Received.channel
        (ControlChannel.receiveAll S.foundation S.token [data] c) := by
  refine ⟨?_, ?_, ?_, ?_, ?_, ?_⟩
  -- From the host to the broker.
  · intro fields frames chunks hframes hchunks
    obtain ⟨lines, values, hflat, hlines, hvalues, hfields⟩ :=
      lines_of_frames (fun h => hS.frameLine_read h) hframes
    have hloads : List.Forall₂ (fun l v => S.python.loads (l ++ [10]) = .ok (.obj v)) lines values :=
      hvalues.imp fun _ _ h => loads_of_read h
    have hread : ∀ l ∈ lines, ∃ v, S.python.loads (l ++ [10]) = .ok (.obj v) := by
      intro l hl
      obtain ⟨-, -, v, hv⟩ := hlines l hl
      exact ⟨v, loads_of_read hv⟩
    have hlen : ∀ l ∈ lines, l.length ≤ maxFrame := fun l hl => (hlines l hl).2.1
    obtain ⟨values', hvalues', hmany⟩ := Frames.many_line hread
    rw [takeWhile_eq_self hlen] at hvalues'
    obtain rfl : values = values' := List.right_unique_forall₂' (fun l v v' h h' => by
      rw [h] at h'
      exact Json.obj.inj (Except.ok.inj h')) hloads hvalues'
    refine ⟨values, hfields, ?_⟩
    rw [Frames.feedAll_lines (fun l hl => (hlines l hl).1) (hchunks.trans hflat), hmany,
      if_pos hlen]
  -- From the broker to the host.
  · intro fields frames chunks c hframes hchunks hc
    obtain ⟨lines, values, hflat, hlines, hvalues, hfields⟩ :=
      lines_of_frames (fun h => hS.encode_read h) hframes
    refine ⟨values, hfields, ?_⟩
    rw [ControlChannel.receiveAll_lines (fun l hl => (hlines l hl).1) (hchunks.trans hflat) hc]
    obtain ⟨hframed, htaken⟩ := ControlChannel.many_receiveFramed lines c
    exact hframed.handed htaken (fun l hl => (hlines l hl).2.1) hvalues
  -- Any stream of lines: both ends take those before the first that is too long.
  · intro lines chunks hlines hchunks
    refine ⟨fun hread => ?_, fun c hc => ?_⟩
    · rw [Frames.feedAll_lines hlines hchunks]
      obtain ⟨values, hvalues, hmany⟩ := Frames.many_line (P := S.python) fun l hl => by
        obtain ⟨v, hv⟩ := Option.isSome_iff_exists.mp (hread l hl)
        exact ⟨v, loads_of_read hv⟩
      exact ⟨values, hvalues.imp fun _ _ h => read_of_loads h, hmany⟩
    · rw [ControlChannel.receiveAll_lines hlines hchunks hc]
      exact ⟨rfl, (ControlChannel.many_receiveFramed lines c).1⟩
  · intro chunks values rest h
    exact Frames.feedAll_buffer (by simp) h
  · intro chunks c hc taken c' h
    exact ControlChannel.receiveAll_buffer hc h
  · intro data c
    rw [ControlChannel.receive_eq, ControlChannel.receiveAll, many_singleton]

end

theorem Texts.read_isSome {T : Texts} {m : Object} {x : Data} (h : (m, x) ∈ T.table) :
    (T.read x).isSome := by
  rw [Texts.read, Option.isSome_map, List.find?_isSome]
  exact ⟨_, h, by simp⟩

theorem Sample.agrees : Sample.setting.Agrees where
  toHost h := Texts.read_isSome (T := Sample.hostTexts) (Sample.writes_of_dumps _ h)
  toGuest h := Texts.read_isSome (Texts.mem_of_write h)
  one := rfl

/-- The hello of a broker, cut after ten bytes. -/
theorem control_framing_hello :
    ∃ x, encode Sample.setting.python
        [("type", .str "hello"), ("nonce", .str Sample.nonce), ("token", .str Sample.token)] =
          .ok x ∧
      ∃ values, values.length = 1 ∧
        ControlChannel.Handed Sample.setting.foundation Sample.token values
          (ControlChannel.receiveAll Sample.setting.foundation Sample.token
            [x.take 10, x.drop 10] .initial) := by
  have hx : (encode Sample.setting.python [("type", .str "hello"), ("nonce", .str Sample.nonce),
      ("token", .str Sample.token)]).toOption.isSome = true := by
    decide +kernel
  cases hx' : encode Sample.setting.python [("type", .str "hello"), ("nonce", .str Sample.nonce),
      ("token", .str Sample.token)] with
  | error e =>
      rw [hx'] at hx
      cases hx
  | ok x =>
      obtain ⟨values, hfields, hhanded⟩ :=
        (control_framing Sample.setting Sample.agrees).2.1 [_] [x] [x.take 10, x.drop 10] .initial
          (.cons hx' .nil) (by simp) rfl
      exact ⟨x, rfl, values, hfields.length_eq.symm, hhanded⟩

end Ashacky.Control
