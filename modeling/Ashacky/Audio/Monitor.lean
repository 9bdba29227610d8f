import Ashacky.Support.JsonText
import Ashacky.Support.Utf8
import Mathlib.Data.List.DropRight

/-!
# Audio — Monitor

`JSONStream` of `guest/devices/audio_events.py`: the text of `pw-dump --monitor`, in whatever pieces
the pipe hands out, is a sequence of JSON arrays.  `feed` decodes a piece, puts it behind what it has
kept, and takes arrays off the front as long as `raw_decode` finds one.

`raw_decode` and `isinstance(value, list)` are given by a `Library`; `Reads` says what is assumed of
it.

* `loop_takes`: the loop takes off the arrays that are complete, and keeps the rest.
* `feed_arrays`: for every way of cutting the stream, each array comes from the call that was given
  its last byte.
-/

namespace Ashacky.Audio.Monitor
open Ashacky.Support JsonText

/-- What `raw_decode` raises. -/
inductive Unread where
  | jsonDecodeError
  | other

structure Library (V : Type) where
  /-- `json.JSONDecoder().raw_decode`: the value, and where it ends. -/
  rawDecode : List Char → Except Unread (V × Nat)
  isList : V → Bool

/-- What `feed` raises; `endless` is that it does not return. -/
inductive Raised where
  | unicodeDecodeError
  | valueError (text : String)
  | other
  | endless

/-- `str.isspace` of one character. -/
def isSpace (c : Char) : Bool :=
  let n := c.toNat
  (0x09 ≤ n && n ≤ 0x0d) || (0x1c ≤ n && n ≤ 0x20) || n = 0x85 || n = 0xa0 || n = 0x1680 ||
    (0x2000 ≤ n && n ≤ 0x200a) || n = 0x2028 || n = 0x2029 || n = 0x202f || n = 0x205f || n = 0x3000

def lstrip (text : List Char) : List Char := text.dropWhile isSpace

def strip (text : List Char) : List Char := (lstrip text).rdropWhile isSpace

structure JSONStream where
  buffer : List Char
  decoder : Utf8.Decoder
  limit : Nat

/-- `__init__`. -/
def JSONStream.initial (limit : Nat) : JSONStream := ⟨[], .start, limit⟩

section Feed
variable {V : Type} (L : Library V)

/-- `while self.buffer.strip()`: what is returned, and what is kept. -/
def loop : Nat → List Char → List V → Except Raised (List V × List Char)
  | 0, _, _ => .error .endless
  | fuel + 1, buffer, result =>
      if strip buffer = [] then .ok (result, buffer)
      else
        let buffer := lstrip buffer
        match L.rawDecode buffer with
        | .error .jsonDecodeError => .ok (result, buffer)
        | .error .other => .error .other
        | .ok (value, finish) =>
            if !L.isList value then .error (.valueError "PipeWire monitor must emit arrays")
            else loop fuel (buffer.drop finish) (result ++ [value])

/-- `feed`.  A turn of the loop that goes on takes a character off at least, unless `raw_decode` finds
a value without one. -/
def JSONStream.feed (s : JSONStream) (data : Data) : Except Raised (List V × JSONStream) :=
  match s.decoder.run data with
  | none => .error .unicodeDecodeError
  | some (text, decoder) =>
      let buffer := s.buffer ++ text
      if buffer.length > s.limit then .error (.valueError "PipeWire monitor frame exceeds limit")
      else
        (loop L (buffer.length + 1) buffer []).map fun x => (x.1, ⟨x.2, decoder, s.limit⟩)

/-- What the calls return, one after the other. -/
def JSONStream.feeds : JSONStream → List Data → Except Raised (List (List V))
  | _, [] => .ok []
  | s, data :: chunks =>
      (s.feed L data).bind fun x => (x.2.feeds chunks).map (x.1 :: ·)

end Feed

/-- What is assumed of the library: the longest value at the start of a text is read, an array that
is cut is not, and the value of an array is a list. -/
structure Reads {V : Type} (L : Library V) (value : List Char → V) : Prop where
  longest : ∀ {t rest : List Char}, Text .value t →
    (∀ u v, t ++ rest = u ++ v → Text .value u → u.length ≤ t.length) →
    L.rawDecode (t ++ rest) = .ok (value t, t.length)
  cut : ∀ {t rest : List Char}, IsArray (t ++ rest) → rest ≠ [] →
    L.rawDecode t = .error .jsonDecodeError
  list : ∀ {t : List Char}, IsArray t → L.isList (value t)

/-! ### The stream -/

/-- An array, and the blanks in front of it. -/
structure Frame where
  before : List Char
  array : List Char
  blank : Blank before
  isArray : IsArray array

def Frame.text (f : Frame) : List Char := f.before ++ f.array

/-- The text of the frames, with blanks after them. -/
def stream (frames : List Frame) (after : List Char) : List Char := frames.flatMap Frame.text ++ after

/-- The frames that fit into so much, one after the other. -/
def within (size : Frame → Nat) : List Frame → Nat → List Frame
  | [], _ => []
  | f :: frames, n => if size f ≤ n then f :: within size frames (n - size f) else []

/-- The frame without its blanks. -/
def Frame.bare (f : Frame) : Frame := ⟨[], f.array, nofun, f.isArray⟩

/-- The number of characters of a frame. -/
def Frame.chars (f : Frame) : Nat := f.text.length

/-- The number of bytes of a frame. -/
def Frame.bytes (f : Frame) : Nat := (Utf8.encode f.text).length

@[simp] theorem stream_cons (f : Frame) (frames : List Frame) (after : List Char) :
    stream (f :: frames) after = f.text ++ stream frames after := by
  rw [stream, List.flatMap_cons, List.append_assoc]
  rfl

theorem Frame.array_pos (f : Frame) : 0 < f.array.length := List.length_pos_of_ne_nil f.isArray.ne_nil

theorem Frame.chars_bare (f : Frame) : f.bare.chars = f.array.length := rfl

theorem Frame.chars_eq (f : Frame) : f.chars = f.before.length + f.array.length := List.length_append

/-! ### Blanks -/

theorem isSpace_of_isBlank {c : Char} (h : isBlank c) : isSpace c := by
  simp only [isBlank, Bool.or_eq_true, decide_eq_true_eq] at h
  obtain ((rfl | rfl) | rfl) | rfl := h <;> decide

theorem strip_eq_nil {t : List Char} : strip t = [] ↔ ∀ c ∈ t, isSpace c := by
  rw [strip, List.rdropWhile_eq_nil_iff, ← List.dropWhile_eq_nil_iff, lstrip, List.dropWhile_idempotent,
    List.dropWhile_eq_nil_iff]

theorem strip_blank {b : List Char} (h : Blank b) : strip b = [] :=
  strip_eq_nil.mpr fun c hc => isSpace_of_isBlank (h c hc)

theorem lstrip_blank {b : List Char} (h : Blank b) (t : List Char) : lstrip (b ++ t) = lstrip t := by
  induction b with
  | nil => rfl
  | cons c b ih =>
      obtain ⟨hc, hb⟩ := List.forall_mem_cons.mp h
      rw [List.cons_append, lstrip, List.dropWhile_cons_of_pos (isSpace_of_isBlank hc)]
      exact ih hb

/-- Behind blanks stands the start of an array. -/
theorem strip_array {b t u : List Char} (hb : Blank b) (h : IsArray (t ++ u)) (ht : t ≠ []) (rest : List Char) :
    strip (b ++ (t ++ rest)) ≠ [] ∧ lstrip (b ++ (t ++ rest)) = t ++ rest := by
  have hhead := h.2
  rw [List.head?_append_of_ne_nil _ ht] at hhead
  obtain ⟨tail, rfl⟩ := List.head?_eq_some_iff.mp hhead
  have hspace : isSpace '[' = false := by decide
  constructor
  · intro hstrip
    have hall := strip_eq_nil.mp hstrip '[' (by simp)
    rw [hspace] at hall
    cases hall
  · rw [lstrip_blank hb, lstrip, List.cons_append, List.dropWhile_cons_of_neg (by rw [hspace]; decide)]

/-! ### Frames that fit -/

section Within
variable {size size' : Frame → Nat} {frames : List Frame} {n n' : Nat}

/-- How many frames fit depends only on which front parts do. -/
theorem within_congr (h : ∀ u v, frames = u ++ v → ((u.map size).sum ≤ n ↔ (u.map size').sum ≤ n')) :
    within size frames n = within size' frames n' := by
  induction frames generalizing n n' with
  | nil => rfl
  | cons f frames ih =>
      have hfirst : size f ≤ n ↔ size' f ≤ n' := by simpa using h [f] frames rfl
      rw [within, within]
      by_cases hfits : size f ≤ n
      · have hfits' := hfirst.mp hfits
        rw [if_pos hfits, if_pos hfits']
        refine congrArg _ (ih fun u v huv => ?_)
        have hu := h (f :: u) v (by rw [huv]; rfl)
        rw [List.map_cons, List.map_cons, List.sum_cons, List.sum_cons] at hu
        omega
      · rw [if_neg hfits, if_neg fun h => hfits (hfirst.mpr h)]

theorem within_all (h : (frames.map size).sum ≤ n) : within size frames n = frames := by
  induction frames generalizing n with
  | nil => rfl
  | cons f frames ih =>
      rw [List.map_cons, List.sum_cons] at h
      rw [within, if_pos (by omega), ih (by omega)]

end Within

theorem chars_sum (frames : List Frame) : (frames.map Frame.chars).sum = (frames.flatMap Frame.text).length := by
  rw [List.length_flatMap]
  rfl

theorem bytes_sum (frames : List Frame) :
    (frames.map Frame.bytes).sum = (Utf8.encode (frames.flatMap Frame.text)).length := by
  induction frames with
  | nil => rfl
  | cons f frames ih =>
      rw [List.map_cons, List.sum_cons, ih, List.flatMap_cons, Utf8.encode_append, List.length_append]
      rfl

/-! ### The loop -/

section Loop
variable {V : Type} {L : Library V} {value : List Char → V} {after future : List Char}

/-- An array in front is read, whatever follows it. -/
theorem Reads.array (hL : Reads L value) {t : List Char} (ht : IsArray t) (rest : List Char) :
    L.rawDecode (t ++ rest) = .ok (value t, t.length) := by
  refine hL.longest ht.1 fun u v huv hu => ?_
  obtain ⟨w, rfl, -⟩ | ⟨w, rfl, -⟩ := List.append_eq_append_iff.mp huv
  · -- The value is longer: it is the array.
    rw [array_closed ht hu, List.append_nil]
  · rw [List.length_append]
    exact Nat.le_add_right _ _

/-- What a turn of the loop, or its end, leaves: the frames to come, and nothing of which the first
would be complete. -/
structure Left (after future : List Char) (frames frames' : List Frame) (buffer buffer' : List Char) :
    Prop where
  text : buffer' ++ future = stream frames' after
  short : within Frame.chars frames' buffer'.length = []
  size : buffer'.length ≤ buffer.length
  rest : ∀ m, (within Frame.chars frames (buffer.length + m)).map Frame.array =
    (within Frame.chars frames buffer.length).map Frame.array ++
      (within Frame.chars frames' (buffer'.length + m)).map Frame.array

/-- Nothing is complete, and nothing is taken off. -/
theorem left_same {frames : List Frame} {buffer : List Char} (h : buffer ++ future = stream frames after)
    (hshort : within Frame.chars frames buffer.length = []) : Left after future frames frames buffer buffer :=
  ⟨h, hshort, Nat.le_refl _, fun m => by rw [hshort]; rfl⟩

/-- A frame is complete. -/
theorem Left.cons {f : Frame} {frames frames' : List Frame} {buffer buffer' : List Char}
    (h : Left after future frames frames' buffer buffer') :
    Left after future (f :: frames) frames' (f.text ++ buffer) buffer' := by
  have hchars : f.text.length = f.chars := rfl
  refine ⟨h.text, h.short, ?_, fun m => ?_⟩
  · rw [List.length_append]
    exact h.size.trans (Nat.le_add_left _ _)
  · rw [within, within, List.length_append, hchars, if_pos (by omega), if_pos (by omega), Nat.add_assoc,
      Nat.add_sub_cancel_left, Nat.add_sub_cancel_left, List.map_cons, List.map_cons, h.rest m]
    rfl

/-- The blanks in front of an array that is cut are taken off. -/
theorem left_cut {f : Frame} {frames : List Frame} {t u : List Char} (harray : f.array = t ++ u)
    (hu : u ≠ []) (h : t ++ future = f.array ++ stream frames after) :
    Left after future (f :: frames) (f.bare :: frames) (f.before ++ t) t := by
  have hpos := List.length_pos_of_ne_nil hu
  have hlength : f.array.length = t.length + u.length := by rw [harray, List.length_append]
  have hshort : within Frame.chars (f :: frames) (f.before ++ t).length = [] := by
    rw [within, f.chars_eq, List.length_append, if_neg (by omega)]
  refine ⟨by rw [h, stream_cons]; rfl, ?_, ?_, fun m => ?_⟩
  · rw [within, f.chars_bare, if_neg (by omega)]
  · rw [List.length_append]
    exact Nat.le_add_left _ _
  · rw [hshort, List.map_nil, List.nil_append, within, within, f.chars_bare, f.chars_eq, List.length_append]
    by_cases hfits : f.array.length ≤ t.length + m
    · have hrest : f.before.length + t.length + m - (f.before.length + f.array.length) =
          t.length + m - f.array.length := by omega
      rw [if_pos (by omega), if_pos hfits, hrest]
      rfl
    · rw [if_neg (by omega), if_neg hfits]

/-- A turn at an array that is complete. -/
theorem loop_read (hL : Reads L value) (f : Frame) (fuel : Nat) (buffer : List Char) (result : List V) :
    loop L (fuel + 1) (f.text ++ buffer) result = loop L fuel buffer (result ++ [value f.array]) := by
  have hfront := strip_array f.blank ((List.append_nil f.array).symm ▸ f.isArray) f.isArray.ne_nil buffer
  rw [← List.append_assoc] at hfront
  obtain ⟨hstrip, hlstrip⟩ := hfront
  rw [Frame.text, loop, if_neg hstrip, hlstrip]
  dsimp only
  rw [hL.array f.isArray]
  dsimp only
  rw [hL.list f.isArray, List.drop_left]
  rfl

/-- A turn at an array that is cut. -/
theorem loop_cut (hL : Reads L value) (f : Frame) {t u : List Char} (harray : f.array = t ++ u) (ht : t ≠ [])
    (hu : u ≠ []) (fuel : Nat) (result : List V) :
    loop L (fuel + 1) (f.before ++ t) result = .ok (result, t) := by
  have harray' : IsArray (t ++ u) := harray ▸ f.isArray
  have hfront := strip_array f.blank harray' ht []
  rw [List.append_nil] at hfront
  rw [loop, if_neg hfront.1, hfront.2]
  dsimp only
  rw [hL.cut harray' hu]

/-- A turn where there are only blanks. -/
theorem loop_blank {buffer : List Char} (h : Blank buffer) (fuel : Nat) (result : List V) :
    loop L (fuel + 1) buffer result = .ok (result, buffer) := by
  rw [loop, if_pos (strip_blank h)]

/-- **The loop takes off the arrays that are complete.** -/
theorem loop_takes (hL : Reads L value) (hafter : Blank after) (frames : List Frame) {fuel : Nat}
    {buffer : List Char} (result : List V) (h : buffer ++ future = stream frames after)
    (hfuel : buffer.length < fuel) :
    ∃ frames' buffer', Left after future frames frames' buffer buffer' ∧
      loop L fuel buffer result =
        .ok (result ++ (within Frame.chars frames buffer.length).map (value ·.array), buffer') := by
  induction frames generalizing fuel buffer result with
  | nil =>
      obtain ⟨fuel, rfl⟩ := Nat.exists_eq_add_of_lt hfuel
      have hall : Blank (buffer ++ future) := h ▸ hafter
      have hblank : Blank buffer := fun c hc => hall c (List.mem_append_left _ hc)
      refine ⟨[], buffer, left_same h rfl, ?_⟩
      rw [loop_blank hblank, within, List.map_nil, List.append_nil]
  | cons f frames ih =>
      obtain ⟨more, rfl⟩ := Nat.exists_eq_add_of_lt hfuel
      rw [stream_cons] at h
      by_cases hfits : f.chars ≤ buffer.length
      · obtain ⟨rest, rfl⟩ : f.text <+: buffer :=
          List.prefix_of_prefix_length_le ⟨_, h.symm⟩ ⟨_, rfl⟩ hfits
        have hsize : (f.text ++ rest).length = f.chars + rest.length := List.length_append
        have hpos := f.array_pos
        have hchars := f.chars_eq
        rw [List.append_assoc] at h
        obtain ⟨frames', buffer', hleft, hloop⟩ :=
          @ih ((f.text ++ rest).length + more) rest (result ++ [value f.array])
            (List.append_cancel_left h) (by omega)
        refine ⟨frames', buffer', hleft.cons, ?_⟩
        rw [loop_read hL, hloop, within, hsize, if_pos (Nat.le_add_right _ _), Nat.add_sub_cancel_left,
          List.map_cons, List.append_assoc]
        rfl
      · have hshort : within Frame.chars (f :: frames) buffer.length = [] := by rw [within, if_neg hfits]
        rw [hshort, List.map_nil, List.append_nil]
        obtain ⟨u, hu⟩ : buffer <+: f.text :=
          List.prefix_of_prefix_length_le ⟨_, rfl⟩ ⟨_, h.symm⟩ (Nat.le_of_not_le hfits)
        obtain ⟨w, hw, -⟩ | ⟨t, rfl, harray⟩ := List.append_eq_append_iff.mp hu
        · -- The array has not begun.
          have hblank : Blank buffer := fun c hc => f.blank c (hw ▸ List.mem_append_left _ hc)
          exact ⟨_, buffer, left_same (by rw [stream_cons, h]) hshort, loop_blank hblank _ _⟩
        · have hne : u ≠ [] := by
            rintro rfl
            rw [List.append_nil] at hu
            exact hfits (hu ▸ Nat.le_refl _)
          by_cases ht : t = []
          · subst ht
            rw [List.append_nil] at h hshort ⊢
            exact ⟨_, f.before, left_same (by rw [stream_cons, h]) hshort, loop_blank f.blank _ _⟩
          · rw [Frame.text, List.append_assoc, List.append_assoc] at h
            exact ⟨_, t, left_cut harray hne (List.append_cancel_left h), loop_cut hL f harray ht hne _ _⟩

end Loop

/-! ### The calls -/

section Calls
variable {V : Type} {L : Library V} {value : List Char → V} {after : List Char}

theorem within_array {f g : List Frame} (h : f.map Frame.array = g.map Frame.array) :
    f.map (value ·.array) = g.map (value ·.array) := by
  have hmap := congrArg (List.map value) h
  rwa [List.map_map, List.map_map] at hmap

/-- **The calls**, from any state that has kept no complete array: they return the arrays that the
decoded text completes. -/
theorem feeds_take (hL : Reads L value) (hafter : Blank after) {chunks : List Data} {frames : List Frame}
    {s : JSONStream} {future : List Char} (htext : s.buffer ++ future = stream frames after)
    (hbytes : s.decoder.run chunks.flatten = some (future, .start))
    (hlimit : (stream frames after).length ≤ s.limit)
    (hshort : within Frame.chars frames s.buffer.length = []) :
    ∃ results, s.feeds L chunks = .ok results ∧ results.length = chunks.length ∧
      ∀ j text m, s.decoder.run (chunks.take j).flatten = some (text, m) →
        (results.take j).flatten =
          (within Frame.chars frames (s.buffer.length + text.length)).map (value ·.array) := by
  induction chunks generalizing frames s future with
  | nil =>
      refine ⟨[], rfl, rfl, fun j text m htext => ?_⟩
      rw [List.take_nil] at htext
      cases htext
      rw [List.take_nil, List.length_nil, Nat.add_zero, hshort]
      rfl
  | cons data chunks ih =>
      rw [List.flatten_cons, Utf8.Decoder.run_append] at hbytes
      obtain ⟨⟨text, decoder⟩, hdata, hbytes⟩ := Option.bind_eq_some_iff.mp hbytes
      obtain ⟨⟨later, last⟩, hlater, hbytes⟩ := Option.map_eq_some_iff.mp hbytes
      obtain ⟨rfl, rfl⟩ := Prod.mk.inj hbytes
      dsimp only at htext hlater
      rw [← List.append_assoc] at htext
      -- The chunk completes some arrays, and the rest of the stream goes on from `frames'`.
      obtain ⟨frames', buffer', hleft, hloop⟩ :=
        loop_takes hL hafter frames [] htext (Nat.lt_succ_self (s.buffer ++ text).length)
      -- The buffer is a part of the stream, which is within the limit.
      have hfits : (s.buffer ++ text).length ≤ s.limit := by
        have hlength := congrArg List.length htext
        rw [List.length_append] at hlength
        omega
      have hfeed : s.feed L data = .ok
          ((within Frame.chars frames (s.buffer ++ text).length).map (value ·.array),
            ⟨buffer', decoder, s.limit⟩) := by
        rw [JSONStream.feed, hdata]
        dsimp only
        rw [if_neg (Nat.not_lt.mpr hfits), hloop]
        rfl
      have hlimit' : (stream frames' after).length ≤ s.limit := by
        have hlength := congrArg List.length htext
        rw [← hleft.text]
        rw [List.length_append] at hlength ⊢
        have hsize := hleft.size
        omega
      obtain ⟨results, hresults, hcount, htake⟩ :=
        ih (s := ⟨buffer', decoder, s.limit⟩) hleft.text hlater hlimit' hleft.short
      refine ⟨(within Frame.chars frames (s.buffer ++ text).length).map (value ·.array) :: results,
        ?_, ?_, fun j all m hall => ?_⟩
      · rw [JSONStream.feeds, hfeed]
        exact congrArg (Except.map _) hresults
      · rw [List.length_cons, List.length_cons, hcount]
      · cases j with
        | zero =>
            cases hall
            rw [List.length_nil, Nat.add_zero, hshort]
            rfl
        | succ j =>
            rw [List.take_succ_cons, List.flatten_cons, Utf8.Decoder.run_append, hdata] at hall
            obtain ⟨⟨rest, m'⟩, hrest, hall⟩ := Option.map_eq_some_iff.mp hall
            obtain ⟨rfl, rfl⟩ := Prod.mk.inj hall
            rw [List.take_succ_cons, List.flatten_cons, htake j rest _ hrest, ← List.map_append]
            have hsum : s.buffer.length + (text ++ rest).length =
                (s.buffer ++ text).length + rest.length := by
              rw [List.length_append, List.length_append, Nat.add_assoc]
            refine within_array ?_
            dsimp only
            rw [List.map_append, hsum]
            exact (hleft.rest rest.length).symm

/-- **The arrays do not depend on how the stream is cut.**  No call raises; together the calls return
the arrays, in order; and after every call these are the ones whose bytes have been given. -/
theorem feed_arrays (hL : Reads L value) (frames : List Frame) (hafter : Blank after) (limit : Nat)
    (hlimit : (stream frames after).length ≤ limit) (chunks : List Data)
    (hchunks : chunks.flatten = Utf8.encode (stream frames after)) :
    ∃ results, (JSONStream.initial limit).feeds L chunks = .ok results ∧
      results.length = chunks.length ∧ results.flatten = frames.map (value ·.array) ∧
      ∀ j, (results.take j).flatten =
        (within Frame.bytes frames (chunks.take j).flatten.length).map (value ·.array) := by
  have hrun : Utf8.Decoder.start.run chunks.flatten = some (stream frames after, .start) := by
    rw [hchunks, Utf8.Decoder.run_encode]
  have hshort : within Frame.chars frames (JSONStream.initial limit).buffer.length = [] := by
    cases frames with
    | nil => rfl
    | cons f frames =>
        have hpos := f.array_pos
        have hchars := f.chars_eq
        rw [within, if_neg]
        rw [JSONStream.initial, List.length_nil]
        omega
  obtain ⟨results, hresults, hcount, htake⟩ :=
    feeds_take hL hafter (s := .initial limit) (List.nil_append _) hrun hlimit hshort
  have hgiven : ∀ j, (results.take j).flatten =
      (within Frame.bytes frames (chunks.take j).flatten.length).map (value ·.array) := by
    intro j
    have hsplit : (chunks.take j).flatten ++ (chunks.drop j).flatten = Utf8.encode (stream frames after) := by
      rw [← List.flatten_append, List.take_append_drop, hchunks]
    obtain ⟨text, rest, m, htext, -, hcomplete⟩ := Utf8.run_front hsplit
    rw [htake j text m htext]
    refine congrArg _ (within_congr fun u v huv => ?_)
    have hstream : stream frames after = u.flatMap Frame.text ++ stream v after := by
      rw [stream, huv, List.flatMap_append, List.append_assoc]
      rfl
    rw [chars_sum, bytes_sum, JSONStream.initial, List.length_nil, Nat.zero_add]
    exact hcomplete _ _ hstream
  refine ⟨results, hresults, hcount, ?_, hgiven⟩
  have hall := hgiven chunks.length
  rw [List.take_length, ← hcount, List.take_length, hchunks] at hall
  rw [hall, within_all]
  rw [bytes_sum, stream, Utf8.encode_append, List.length_append]
  exact Nat.le_add_right _ _

end Calls

/-! ### The longest value -/

open Classical in
/-- The longest value at the start of a text, if there is one. -/
noncomputable def longestValue (t : List Char) : Except Unread (List Char × Nat) :=
  if h : ∃ n ≤ t.length, Text .value (t.take n) ∧
      ∀ m ≤ t.length, Text .value (t.take m) → m ≤ n then
    .ok (t.take h.choose, h.choose)
  else .error .jsonDecodeError

/-- The library that reads a value as its text. -/
noncomputable def textLibrary : Library (List Char) := ⟨longestValue, (·.head? = some '[')⟩

theorem reads_textLibrary : Reads textLibrary id where
  longest := by
    intro t rest ht hlongest
    have htake : (t ++ rest).take t.length = t := List.take_left
    have hmax : ∀ m ≤ (t ++ rest).length, Text .value ((t ++ rest).take m) → m ≤ t.length := by
      intro m hm hvalue
      have hle := hlongest _ _ (List.take_append_drop m (t ++ rest)).symm hvalue
      rwa [List.length_take, Nat.min_eq_left hm] at hle
    have hsome : ∃ n ≤ (t ++ rest).length, Text .value ((t ++ rest).take n) ∧
        ∀ m ≤ (t ++ rest).length, Text .value ((t ++ rest).take m) → m ≤ n :=
      ⟨t.length, by simp, by rwa [htake], hmax⟩
    obtain ⟨hin, hvalue, hall⟩ := hsome.choose_spec
    have hchosen : hsome.choose = t.length :=
      Nat.le_antisymm (hmax _ hin hvalue) (hall _ (by simp) (by rwa [htake]))
    change longestValue (t ++ rest) = _
    rw [longestValue, dif_pos hsome, hchosen, htake]
    rfl
  cut := by
    intro t rest harray hrest
    change longestValue t = _
    rw [longestValue, dif_neg]
    rintro ⟨n, -, hvalue, -⟩
    rw [← List.take_append_drop n t] at harray
    exact not_value_of_cut harray hrest hvalue
  list := fun h => decide_eq_true h.2

/-- `["é"]`, behind nothing. -/
def sampleFrame : Frame where
  before := []
  array := ['[', '\x22', 'é', '\x22', ']']
  blank := nofun
  isArray := by
    have hquoted : Quoted ['é'] := .char (by decide) (by decide) (by decide) .nil
    have helement : Text .element ['\x22', 'é', '\x22'] :=
      @Text.element [] _ [] nofun (.string hquoted) nofun
    exact ⟨.array (.oneElement helement), rfl⟩

/-- `[]`, on a line of its own. -/
def emptyFrame : Frame := ⟨['\n'], ['[', ']'], by simp [Blank, isBlank], .noElements (t := []) nofun, rfl⟩

/-- The stream is cut within a character, within a string and within an array. -/
theorem feed_arrays_cut :
    ∃ results, (JSONStream.initial 8).feeds textLibrary
        [[0x5b, 0x22, 0xc3], [0xa9, 0x22], [0x5d, 0x0a, 0x5b], [0x5d]] = .ok results ∧
      results.flatten = [sampleFrame.array, emptyFrame.array] := by
  obtain ⟨results, hresults, -, hall, -⟩ :=
    @feed_arrays _ _ _ [] reads_textLibrary [sampleFrame, emptyFrame] nofun 8 (by decide)
      [[0x5b, 0x22, 0xc3], [0xa9, 0x22], [0x5d, 0x0a, 0x5b], [0x5d]] (by decide)
  exact ⟨results, hresults, hall⟩

end Ashacky.Audio.Monitor
