import Ashacky.Control.Failure
import Ashacky.Control.Budget

/-!
# Control — the output queue of the channel

`enqueue` puts a line at the end of `queue`, `drain` hands the first line to `write` and leaves it
where it is, and its completion takes it away.  `close()` empties the queue and begins a generation;
completions and timeouts of earlier writes may still come.

* `Op.Step`: the operations on the queue, each with the lines it enqueues and hands to `write`.  What
  else the channel does leaves the queue alone.
* `receive_ops`, `complete_ops`: the channel changes its queue by these operations only.
* `Fifo`: within a generation, the lines handed to `write` and the lines still queued make up the
  lines enqueued.
* `queue_fifo`: what follows for every run.
-/

namespace Ashacky.Control
open Ashacky.Support

namespace ControlChannel

/-! ### Operations -/

inductive Op where
  | enqueue (frame : HostFrame)
  /-- The n-th write that is waited for completes. -/
  | wrote (n : Nat) (success : Bool)
  /-- The n-th write that is waited for times out. -/
  | timeout (n : Nat)
  | close
  | fail
  /-- Anything else. -/
  | other

/-- The lines enqueued and those handed to `write`, each with its generation. -/
structure Moved where
  enqueued : List (Nat × Line)
  handed : List (Nat × Line)

/-- The line that `enqueue` puts on the queue. -/
def taken (F : Foundation) (f : HostFrame) (c : ControlChannel) : List (Nat × Line) :=
  match F.data f.entries with
  | some bytes =>
      if bytes.length ≤ maximumFrame ∧ c.queuedBytes + (bytes.length + 1) ≤ maximumQueue then
        [(c.generation, ⟨f, bytes ++ [10]⟩)]
      else []
  | none => []

def Op.Step (F : Foundation) (c : ControlChannel) : Op → Moved → ControlChannel → Prop
  | .enqueue f, o, c' =>
      c' = c.enqueue F f ∧ o = ⟨c.taken F f, c'.writes.drop c.writes.length⟩
  | .wrote n success, o, c' => ∃ expected line, c.writes[n]? = some (expected, line) ∧
      c' = { c with writes := c.writes.eraseIdx n }.wrote expected line success ∧
      o = ⟨[], c'.writes.drop (c.writes.eraseIdx n).length⟩
  | .timeout n, o, c' => ∃ expected line, c.writes[n]? = some (expected, line) ∧
      c' = c.writeTimeout expected ∧ o = ⟨[], []⟩
  | .close, o, c' => c' = c.close ∧ o = ⟨[], []⟩
  | .fail, o, c' => c' = c.fail ∧ o = ⟨[], []⟩
  | .other, o, c' => SameQueue c c' ∧ o = ⟨[], []⟩

/-- The lines of one generation. -/
def ofGeneration (g : Nat) (l : List (Nat × Line)) : List Line :=
  (l.filter (·.1 = g)).map Prod.snd

variable {F : Foundation} {token : String} {c c' : ControlChannel}

@[simp] theorem ofGeneration_append (g : Nat) (l l' : List (Nat × Line)) :
    ofGeneration g (l ++ l') = ofGeneration g l ++ ofGeneration g l' := by
  rw [ofGeneration, List.filter_append, List.map_append]
  rfl

@[simp] theorem ofGeneration_nil (g : Nat) : ofGeneration g [] = [] := rfl

@[simp] theorem ofGeneration_self (g : Nat) (line : Line) : ofGeneration g [(g, line)] = [line] := by
  simp [ofGeneration]

theorem ofGeneration_other {g g' : Nat} (h : g' ≠ g) (line : Line) :
    ofGeneration g [(g', line)] = [] := by
  simp [ofGeneration, h]

/-- A write that completes was one of its generation, and no other write is taken away. -/
theorem ofGeneration_eraseIdx {l : List (Nat × Line)} {n g : Nat} {line : Line}
    (h : l[n]? = some (g, line)) :
    (∀ g' ≠ g, ofGeneration g' (l.eraseIdx n) = ofGeneration g' l) ∧
      ((ofGeneration g l).length ≤ 1 → ofGeneration g l = [line] ∧
        ofGeneration g (l.eraseIdx n) = []) := by
  obtain ⟨hn, hget⟩ := List.getElem?_eq_some_iff.mp h
  have hl : l = l.take n ++ ([(g, line)] ++ l.drop (n + 1)) := by
    rw [← hget, List.singleton_append, ← List.drop_eq_getElem_cons hn, List.take_append_drop]
  have he : l.eraseIdx n = l.take n ++ l.drop (n + 1) := List.eraseIdx_eq_take_drop_succ l n
  refine ⟨fun g' hg' => ?_, fun hlen => ?_⟩
  · conv_rhs => rw [hl]
    rw [he, ofGeneration_append, ofGeneration_append, ofGeneration_append,
      ofGeneration_other (Ne.symm hg'), List.nil_append]
  · have hparts : ofGeneration g l =
        ofGeneration g (l.take n) ++ ([line] ++ ofGeneration g (l.drop (n + 1))) := by
      conv_lhs => rw [hl]
      rw [ofGeneration_append, ofGeneration_append, ofGeneration_self]
    rw [hparts] at hlen ⊢
    simp only [List.length_append, List.length_singleton] at hlen
    have h₁ : ofGeneration g (l.take n) = [] := List.length_eq_zero_iff.mp (by omega)
    have h₂ : ofGeneration g (l.drop (n + 1)) = [] := List.length_eq_zero_iff.mp (by omega)
    rw [he, ofGeneration_append, h₁, h₂]
    exact ⟨rfl, rfl⟩

/-! ### The invariant -/

/-- The lines of the queue that are being written: the first, or none. -/
def flying (c : ControlChannel) : List Line := c.queue.take (if c.writing then 1 else 0)

/-- The queue, with the lines enqueued and handed to `write` so far. -/
structure Fifo (c : ControlChannel) (enqueued handed : List (Nat × Line)) : Prop where
  bytes : c.queuedBytes = (c.queue.map fun line => line.bytes.length).sum
  room : c.queuedBytes ≤ maximumQueue
  writing : c.writing = true → c.queue ≠ []
  flight : ofGeneration c.generation c.writes = c.flying
  order : ∃ done, ofGeneration c.generation enqueued = done ++ c.queue ∧
    ofGeneration c.generation handed = done ++ c.flying
  past : ∀ g < c.generation, ofGeneration g handed <+: ofGeneration g enqueued
  later : ∀ g > c.generation, ofGeneration g enqueued = [] ∧ ofGeneration g handed = [] ∧
    ofGeneration g c.writes = []
  one : ∀ g, (ofGeneration g c.writes).length ≤ 1

theorem fifo_initial : Fifo .initial [] [] where
  bytes := rfl
  room := by decide
  writing := nofun
  flight := rfl
  order := ⟨[], rfl, rfl⟩
  past _ _ := List.prefix_refl _
  later _ _ := ⟨rfl, rfl, rfl⟩
  one _ := Nat.zero_le _

namespace Fifo

variable {enqueued handed : List (Nat × Line)}

/-- Of the current generation, too, the lines handed to `write` come first. -/
theorem handed_prefix (I : Fifo c enqueued handed) (g : Nat) :
    ofGeneration g handed <+: ofGeneration g enqueued := by
  rcases Nat.lt_trichotomy g c.generation with hlt | rfl | hgt
  · exact I.past g hlt
  · obtain ⟨done, he, hh⟩ := I.order
    rw [he, hh]
    exact (List.prefix_append_right_inj done).mpr (List.take_prefix _ _)
  · rw [(I.later g hgt).1, (I.later g hgt).2.1]

theorem same (I : Fifo c enqueued handed) (h : SameQueue c c') : Fifo c' enqueued handed := by
  have hflying : c'.flying = c.flying := by rw [flying, flying, h.queue, h.writing]
  refine ⟨?_, ?_, ?_, ?_, ?_, ?_, ?_, ?_⟩
  · rw [h.queuedBytes, h.queue]
    exact I.bytes
  · rw [h.queuedBytes]
    exact I.room
  · rw [h.writing, h.queue]
    exact I.writing
  · rw [h.generation, h.writes, hflying]
    exact I.flight
  · rw [h.generation, h.queue, hflying]
    exact I.order
  · rw [h.generation]
    exact I.past
  · rw [h.generation, h.writes]
    exact I.later
  · rw [h.writes]
    exact I.one

/-- A generation ends; what it handed to `write` stays a prefix of what it enqueued. -/
theorem close (I : Fifo c enqueued handed) : Fifo c.close enqueued handed where
  bytes := rfl
  room := (by decide : (0 : Int) ≤ maximumQueue)
  writing := nofun
  flight := (I.later (c.generation + 1) (Nat.lt_succ_self _)).2.2
  order := ⟨[], (I.later (c.generation + 1) (Nat.lt_succ_self _)).1,
    (I.later (c.generation + 1) (Nat.lt_succ_self _)).2.1⟩
  past g _ := I.handed_prefix g
  later g hg := I.later g (Nat.lt_of_succ_lt hg)
  one := I.one

theorem fail (I : Fifo c enqueued handed) : Fifo c.fail enqueued handed :=
  I.close.same ⟨rfl, rfl, rfl, rfl, rfl⟩

/-- **Draining** hands over the first line, unless a line is being written. -/
theorem drain (I : Fifo c enqueued handed) :
    Fifo c.drain enqueued (handed ++ c.drain.writes.drop c.writes.length) := by
  rw [ControlChannel.drain]
  split
  · next line rest hw hq =>
      have hflight : ofGeneration c.generation c.writes = [] := by
        rw [I.flight, flying, hw]
        rfl
      dsimp only
      rw [List.drop_left]
      refine ⟨I.bytes, I.room, fun _ => by simp [hq], ?_, ?_, ?_, ?_, ?_⟩
      · simp [hflight, flying, hq]
      · obtain ⟨done, he, hh⟩ := I.order
        refine ⟨done, he, ?_⟩
        simp only [flying, hw] at hh
        simpa [flying, hq] using hh
      · intro g hg
        rw [ofGeneration_append, ofGeneration_other (Nat.ne_of_gt hg), List.append_nil]
        exact I.past g hg
      · intro g hg
        rw [ofGeneration_append, ofGeneration_append, ofGeneration_other (Nat.ne_of_lt hg),
          List.append_nil, List.append_nil]
        exact I.later g hg
      · intro g
        rw [ofGeneration_append]
        by_cases hg : c.generation = g
        · subst hg
          rw [hflight, ofGeneration_self]
          exact le_rfl
        · rw [ofGeneration_other hg, List.append_nil]
          exact I.one g
  · rw [List.drop_length, List.append_nil]
    exact I

/-- **Enqueueing** puts the line behind the others, or the channel fails. -/
theorem enqueue (I : Fifo c enqueued handed) (F : Foundation) (f : HostFrame) :
    Fifo (c.enqueue F f) (enqueued ++ c.taken F f)
      (handed ++ (c.enqueue F f).writes.drop c.writes.length) := by
  by_cases hfits : c.Fits F f
  · obtain ⟨bytes, hdata, hlen, hroom⟩ := hfits
    set line : Line := ⟨f, bytes ++ [10]⟩ with hline
    set c₁ : ControlChannel := { c with
      queue := c.queue ++ [line]
      queuedBytes := c.queuedBytes + (bytes.length + 1) } with hc₁
    have henqueue : c.enqueue F f = c₁.drain := by
      simp only [ControlChannel.enqueue, hdata, if_pos hlen, if_pos hroom]
      rfl
    have htaken : c.taken F f = [(c.generation, line)] := by
      simp only [taken, hdata, if_pos (And.intro hlen hroom)]
      rfl
    -- The new line is behind the one that is being written.
    have hflying : c₁.flying = c.flying := by
      simp only [flying, hc₁]
      split
      · next hw =>
          exact List.take_append_of_le_length (List.length_pos_iff.mpr (I.writing hw))
      · rfl
    have I₁ : Fifo c₁ (enqueued ++ [(c.generation, line)]) handed := by
      refine ⟨?_, hroom, ?_, ?_, ?_, ?_, ?_, I.one⟩
      · simp only [hc₁, List.map_append, List.sum_append, I.bytes, hline]
        simp
      · simp [hc₁]
      · rw [hflying]
        exact I.flight
      · obtain ⟨done, he, hh⟩ := I.order
        refine ⟨done, ?_, hflying ▸ hh⟩
        change ofGeneration c.generation _ = _
        rw [ofGeneration_append, he, ofGeneration_self, List.append_assoc]
      · intro g hg
        rw [ofGeneration_append, ofGeneration_other (Nat.ne_of_gt hg), List.append_nil]
        exact I.past g hg
      · intro g hg
        rw [ofGeneration_append, ofGeneration_other (Nat.ne_of_lt hg), List.append_nil]
        exact I.later g hg
    rw [henqueue, htaken]
    exact I₁.drain
  · have htaken : c.taken F f = [] := by
      rw [taken]
      split
      · next bytes hdata => exact if_neg fun h => hfits ⟨bytes, hdata, h⟩
      · rfl
    have hdrop : c.fail.writes.drop c.writes.length = [] := List.drop_length
    rw [htaken, enqueue_of_not_fits hfits, hdrop, List.append_nil, List.append_nil]
    exact I.fail

/-- **A write completes**: the first line is taken away, or the channel fails.  A completion of an
earlier generation takes away its write only. -/
theorem wrote (I : Fifo c enqueued handed) {n expected : Nat} {line : Line}
    (hn : c.writes[n]? = some (expected, line)) (success : Bool) :
    Fifo ({ c with writes := c.writes.eraseIdx n }.wrote expected line success) enqueued
      (handed ++ ({ c with writes := c.writes.eraseIdx n }.wrote expected line success).writes.drop
        (c.writes.eraseIdx n).length) := by
  obtain ⟨hothers, hown⟩ := ofGeneration_eraseIdx hn
  obtain ⟨hone, hnone⟩ := hown (I.one expected)
  have hlen : ∀ g, (ofGeneration g (c.writes.eraseIdx n)).length ≤ 1 := by
    intro g
    by_cases hg : g = expected
    · rw [hg, hnone]
      exact Nat.zero_le _
    · rw [hothers g hg]
      exact I.one g
  rw [ControlChannel.wrote]
  by_cases hg : c.generation = expected
  · subst hg
    -- The write is that of the first line, which is the only one of the generation.
    have hflying : c.flying = [line] := I.flight ▸ hone
    obtain ⟨rest, hqueue⟩ : ∃ rest, c.queue = line :: rest := by
      rw [flying] at hflying
      cases hq : c.queue with
      | nil => simp [hq] at hflying
      | cons first rest =>
          refine ⟨rest, ?_⟩
          split at hflying
          · rw [hq] at hflying
            rw [(List.cons.inj hflying).1]
          · simp at hflying
    have hlater : ∀ g > c.generation, ofGeneration g (c.writes.eraseIdx n) = [] := fun g hg => by
      rw [hothers g (Nat.ne_of_gt hg)]
      exact (I.later g hg).2.2
    rw [if_pos rfl]
    cases success with
    | true =>
        rw [if_pos rfl]
        refine Fifo.drain ⟨?_, ?_, by rintro ⟨⟩, ?_, ?_, I.past, ?_, hlen⟩
        · have := I.bytes
          simp only [hqueue, List.map_cons, List.sum_cons] at this
          simp only [hqueue, List.tail_cons]
          omega
        · have := I.room
          have := I.bytes
          simp only
          omega
        · exact hnone
        · obtain ⟨done, he, hh⟩ := I.order
          refine ⟨done ++ [line], ?_, ?_⟩
          · simp only [hqueue, List.tail_cons]
            rw [he, hqueue, List.append_assoc]
            rfl
          · rw [hh, hflying]
            exact (List.append_nil _).symm
        · intro g hg
          exact ⟨(I.later g hg).1, (I.later g hg).2.1, hlater g hg⟩
    | false =>
        rw [if_neg Bool.false_ne_true]
        have hdrop : ({ c with writes := c.writes.eraseIdx n } : ControlChannel).fail.writes.drop
            (c.writes.eraseIdx n).length = [] := List.drop_length
        rw [hdrop, List.append_nil]
        refine ⟨rfl, (by decide : (0 : Int) ≤ maximumQueue), by rintro ⟨⟩, ?_, ?_, ?_, ?_, hlen⟩
        · exact hlater _ (Nat.lt_succ_self _)
        · exact I.close.order
        · exact I.close.past
        · intro g hg
          have hg' := Nat.lt_of_succ_lt hg
          exact ⟨(I.later g hg').1, (I.later g hg').2.1, hlater g hg'⟩
  · rw [if_neg hg, List.drop_length, List.append_nil]
    refine ⟨I.bytes, I.room, I.writing, ?_, I.order, I.past, ?_, hlen⟩
    · exact (hothers _ hg).trans I.flight
    · intro g hg'
      refine ⟨(I.later g hg').1, (I.later g hg').2.1, ?_⟩
      by_cases he : g = expected
      · rw [he]
        exact hnone
      · exact (hothers g he).trans (I.later g hg').2.2

/-- **One operation.** -/
theorem step (I : Fifo c enqueued handed) {e : Op} {o : Moved} (h : Op.Step F c e o c') :
    Fifo c' (enqueued ++ o.enqueued) (handed ++ o.handed) := by
  cases e with
  | enqueue f =>
      obtain ⟨rfl, rfl⟩ := h
      exact I.enqueue F f
  | wrote n success =>
      obtain ⟨expected, line, hn, rfl, rfl⟩ := h
      rw [List.append_nil]
      exact I.wrote hn success
  | timeout n =>
      obtain ⟨expected, line, -, rfl, rfl⟩ := h
      rw [List.append_nil, List.append_nil, writeTimeout]
      split
      · exact I.fail
      · exact I
  | close =>
      obtain ⟨rfl, rfl⟩ := h
      rw [List.append_nil, List.append_nil]
      exact I.close
  | fail =>
      obtain ⟨rfl, rfl⟩ := h
      rw [List.append_nil, List.append_nil]
      exact I.fail
  | other =>
      obtain ⟨hq, rfl⟩ := h
      rw [List.append_nil, List.append_nil]
      exact I.same hq

end Fifo

/-! ### The channel -/

theorem other_step (h : SameQueue c c') : Op.Step F c .other ⟨[], []⟩ c' := ⟨h, rfl⟩

theorem fail_step (c : ControlChannel) : Op.Step F c .fail ⟨[], []⟩ c.fail := ⟨rfl, rfl⟩

theorem enqueue_step (F : Foundation) (f : HostFrame) (c : ControlChannel) :
    Op.Step F c (.enqueue f) ⟨c.taken F f, (c.enqueue F f).writes.drop c.writes.length⟩
      (c.enqueue F f) :=
  ⟨rfl, rfl⟩

theorem close_step (c : ControlChannel) : Op.Step F c .close ⟨[], []⟩ c.close := ⟨rfl, rfl⟩

theorem wrote_step {n expected : Nat} {line : Line} (hn : c.writes[n]? = some (expected, line))
    (success : Bool) : Op.Step F c (.wrote n success)
      ⟨[], ({ c with writes := c.writes.eraseIdx n }.wrote expected line success).writes.drop
        (c.writes.eraseIdx n).length⟩
      ({ c with writes := c.writes.eraseIdx n }.wrote expected line success) :=
  ⟨expected, line, hn, rfl, rfl⟩

theorem timeout_step {n expected : Nat} {line : Line} (hn : c.writes[n]? = some (expected, line)) :
    Op.Step F c (.timeout n) ⟨[], []⟩ (c.writeTimeout expected) :=
  ⟨expected, line, hn, rfl, rfl⟩

/-- **Receiving** is a sequence of operations. -/
theorem receive_ops (F : Foundation) (token : String) (data : Data) (c : ControlChannel) :
    ∃ t, Steps (Op.Step F) c t (c.receive F token data) := by
  induction data generalizing c with
  | nil => exact ⟨[], .refl c⟩
  | cons byte data ih =>
      have hbuffer : ∀ buffer, SameQueue c { c with buffer } :=
        fun _ => ⟨rfl, rfl, rfl, rfl, rfl⟩
      rw [receive]
      by_cases hb : byte = 10
      · rw [if_pos hb, receiveLine_eq]
        cases objectOf F c.buffer with
        | none => exact ⟨_, .more (other_step (hbuffer [])) (.one (fail_step _))⟩
        | some value =>
            rw [Option.bind_some]
            rcases handled F token value { c with buffer := [] } with
              ⟨-, hh⟩ | ⟨c', -, hh, hq⟩ | ⟨f, c₁, -, hh, hq⟩
            · rw [hh]
              exact ⟨_, .more (other_step (hbuffer [])) (.one (fail_step _))⟩
            · rw [hh]
              obtain ⟨t, ht⟩ := ih c'
              exact ⟨_, .more (other_step (hbuffer [])) (.more (other_step hq) ht)⟩
            · rw [hh]
              obtain ⟨t, ht⟩ := ih (c₁.enqueue F f)
              exact ⟨_, .more (other_step (hbuffer []))
                (.more (other_step hq) (.more (enqueue_step F f c₁) ht))⟩
      · rw [if_neg hb]
        by_cases hlen : c.buffer.length < maximumFrame
        · rw [if_pos hlen]
          obtain ⟨t, ht⟩ := ih { c with buffer := c.buffer ++ [byte] }
          exact ⟨_, .more (other_step (hbuffer _)) ht⟩
        · rw [if_neg hlen]
          exact ⟨_, .one (fail_step _)⟩

/-- So is the completion of a handler. -/
theorem complete_ops (F : Foundation) (n : Nat) (result : Object) (c : ControlChannel) :
    ∃ t, Steps (Op.Step F) c t (c.complete F n result) := by
  rw [complete]
  split
  · exact ⟨[], .refl c⟩
  · dsimp only
    split
    · rw [reply]
      split
      · next session _ =>
          refine ⟨_, .more (other_step ?_) (.one (enqueue_step F _ _))⟩
          exact ⟨rfl, rfl, rfl, rfl, rfl⟩
      · exact ⟨_, .one (other_step ⟨rfl, rfl, rfl, rfl, rfl⟩)⟩
    · exact ⟨_, .one (other_step ⟨rfl, rfl, rfl, rfl, rfl⟩)⟩

/-- **The channel's queue** changes by these operations, whatever happens to the channel. -/
theorem work_ops {L L' : Ledger} {e : Ledger.Work} (h : Ledger.Step F token L e () L') :
    ∃ t, Steps (Op.Step F) L.channel t L'.channel := by
  cases e with
  | receive data =>
      cases h
      rw [Ledger.channel_receive]
      exact receive_ops F token data L.channel
  | close =>
      cases h
      exact ⟨_, .one (close_step _)⟩
  | fail =>
      cases h
      exact ⟨_, .one (fail_step _)⟩
  | wrote n success =>
      rw [Ledger.Step, Ledger.next] at h
      split at h
      · next expected line hn =>
          cases h
          exact ⟨_, .one (wrote_step hn success)⟩
      · cases h
  | writeTimeout n =>
      rw [Ledger.Step, Ledger.next] at h
      split at h
      · next expected line hn =>
          cases h
          exact ⟨_, .one (timeout_step hn)⟩
      · cases h
  | complete n result =>
      obtain ⟨-, ⟨⟩⟩ := Option.ite_none_right_eq_some.mp h
      exact complete_ops F n result L.channel

/-- A run of the ledger is a run of the queue's operations, from the channel it has. -/
theorem works_ops {L L' : Ledger} {u : List (Ledger.Work × Unit)}
    (h : Steps (Ledger.Step F token) L u L') :
    ∃ t, Steps (Op.Step F) L.channel t L'.channel := by
  induction h with
  | refl L => exact ⟨[], .refl _⟩
  | more hstep _ ih =>
      obtain ⟨t, ht⟩ := work_ops hstep
      obtain ⟨t', ht'⟩ := ih
      exact ⟨t ++ t', ht.append ht'⟩

/-! ### Runs -/

/-- The lines enqueued in a run, and those handed to `write`. -/
def enqueuedIn (t : List (Op × Moved)) : List (Nat × Line) := t.flatMap fun e => e.2.enqueued

def handedIn (t : List (Op × Moved)) : List (Nat × Line) := t.flatMap fun e => e.2.handed

theorem fifo_run {t : List (Op × Moved)} (h : Steps (Op.Step F) .initial t c) :
    Fifo c (enqueuedIn t) (handedIn t) := by
  have := h.invariant_trace (I := fun c t => Fifo c (enqueuedIn t) (handedIn t)) (u := [])
    (fun I hstep => by simpa [enqueuedIn, handedIn] using I.step hstep) fifo_initial
  simpa using this

/-- **The output queue is a FIFO.**  In every run, within each generation, the lines handed to `write`
are a prefix of the lines enqueued and at most one of them is in flight; `queuedBytes` is the size of
the queue and bounded; and what completes or times out after its generation changes nothing. -/
theorem queue_fifo (F : Foundation) {t : List (Op × Moved)} {c : ControlChannel}
    (h : Steps (Op.Step F) .initial t c) :
    (∀ g, ofGeneration g (handedIn t) <+: ofGeneration g (enqueuedIn t)) ∧
    (∀ g, (ofGeneration g c.writes).length ≤ 1) ∧
    c.queuedBytes = (c.queue.map fun line => line.bytes.length).sum ∧ c.queuedBytes ≤ 262144 ∧
    ∀ n expected line, c.writes[n]? = some (expected, line) → expected ≠ c.generation →
      ∀ e, (e = .timeout n ∨ ∃ success, e = .wrote n success) → ∀ o c', Op.Step F c e o c' →
        c'.queue = c.queue ∧ c'.queuedBytes = c.queuedBytes ∧ c'.writing = c.writing := by
  have I := fifo_run h
  refine ⟨I.handed_prefix, I.one, I.bytes, I.room, ?_⟩
  intro n expected line hn hg e he o c' hstep
  rcases he with rfl | ⟨success, rfl⟩
  · obtain ⟨expected', line', hn', rfl, -⟩ := hstep
    rw [hn] at hn'
    cases hn'
    rw [writeTimeout, if_neg fun h => hg h.1.symm]
    exact ⟨rfl, rfl, rfl⟩
  · obtain ⟨expected', line', hn', rfl, -⟩ := hstep
    rw [hn] at hn'
    cases hn'
    rw [wrote, if_neg (Ne.symm hg)]
    exact ⟨rfl, rfl, rfl⟩

end ControlChannel

namespace Sample

/-- The welcome of the first session. -/
def welcome : HostFrame := .welcome nonce session token

end Sample

/-- The channel is closed while a welcome is written, and a welcome of the next generation is handed
over before that write completes. -/
theorem queue_fifo_reopened : ∃ t c,
    Steps (ControlChannel.Op.Step Sample.setting.foundation) .initial t c ∧
      (ControlChannel.enqueuedIn t).length = 2 ∧ (ControlChannel.handedIn t).length = 2 ∧
      ControlChannel.ofGeneration 0 (ControlChannel.handedIn t) <+:
        ControlChannel.ofGeneration 0 (ControlChannel.enqueuedIn t) ∧
      c.writes.map Prod.fst = [0, 1] := by
  have hrun := (Steps.one (ControlChannel.enqueue_step Sample.setting.foundation Sample.welcome
      .initial)).append <| .more (ControlChannel.close_step _) <|
    .one (ControlChannel.enqueue_step Sample.setting.foundation Sample.welcome _)
  refine ⟨_, _, hrun, ?_, ?_, (ControlChannel.queue_fifo _ hrun).1 0, ?_⟩
  · decide +kernel
  · decide +kernel
  · decide +kernel

end Ashacky.Control
