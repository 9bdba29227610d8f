import Ashacky.Fido.Service

/-!
# Fido — serialisation and cancellation

Over every interleaving of the blocks of the two queues.  An accepted request is *outstanding* from
the block that accepts it to its completion block: its job is queued, runs, or has returned.

* `step_effect`: a block answers its own request, accepts it, completes the oldest outstanding one,
  or leaves requests and replies alone.
* `Serial`: at most one request is outstanding, and it is the current one.
* `replied_once`: a request that is not outstanding has been answered once, and an outstanding one
  not at all.
* `serial_service` adds that a request that was cancelled, by its id, by `cancelAll` or by its
  timeout, before its completion block is answered with 0x2d.
-/

namespace Ashacky.Fido
open Ashacky.Support

namespace FIDO2Service

variable {C : Core} {F : Foundation} {s s' : FIDO2Service C} {e : Block C} {o : List (Nat × Reply)}

/-- The request of a job. -/
def callOf : Job → Option Call
  | .process call => some call
  | .clear => none

/-- The accepted requests that await their completion block, oldest first. -/
def outstanding (s : FIDO2Service C) : List Call :=
  s.completions.map Prod.fst ++ s.running.toList ++ s.jobs.filterMap callOf

/-- What a block does to the requests and replies. -/
inductive Effect (F : Foundation) (s : FIDO2Service C) :
    Block C → List (Nat × Reply) → FIDO2Service C → Prop where
  /-- A request is answered at once. -/
  | answered {fields : Fields} {session : Session} {r : Reply} {s' : FIDO2Service C}
      (hcalls : s'.calls = s.calls + 1) (ho : s'.outstanding = s.outstanding)
      (hc : s'.current = s.current) : Effect F s (.request fields session) [(s.calls, r)] s'
  /-- A request is accepted. -/
  | accepted {fields : Fields} {session : Session} {id channel : String} {data : Data}
      {s' : FIDO2Service C} (hask : asked F fields = .process id channel data)
      (hcalls : s'.calls = s.calls + 1) (hfree : s.current = none)
      (ho : s'.outstanding = s.outstanding ++ [⟨s.calls, id, channel, data, s.generation⟩])
      (hc : s'.current = some (id, s.calls)) : Effect F s (.request fields session) [] s'
  /-- No request is taken or answered. -/
  | silent {e : Block C} {s' : FIDO2Service C} (he : ∀ fields session, e ≠ .request fields session)
      (hcalls : s'.calls = s.calls) (ho : s'.outstanding = s.outstanding)
      (hc : s'.current = s.current) : Effect F s e [] s'
  /-- The oldest outstanding request is answered. -/
  | completed {session : Session} {call : Call} {result : Data} {s' : FIDO2Service C}
      (hcalls : s'.calls = s.calls) (ho : s.outstanding = call :: s'.outstanding)
      (hc : s'.current = none) : Effect F s (.complete session)
        [(call.number, ⟨true, some (answer (s.valid call session) result)⟩)] s'

@[simp] theorem stopCurrent_fields (s : FIDO2Service C) :
    s.stopCurrent.current = s.current ∧ s.stopCurrent.jobs = s.jobs ∧
      s.stopCurrent.running = s.running ∧ s.stopCurrent.completions = s.completions ∧
      s.stopCurrent.calls = s.calls ∧ s.stopCurrent.generation = s.generation := by
  rw [stopCurrent]
  split <;> exact ⟨rfl, rfl, rfl, rfl, rfl, rfl⟩

@[simp] theorem outstanding_enqueueClear (s : FIDO2Service C) :
    s.enqueueClear.outstanding = s.outstanding := by
  simp [outstanding, enqueueClear, callOf]

theorem outstanding_stopCurrent (s : FIDO2Service C) :
    s.stopCurrent.outstanding = s.outstanding := by
  simp [outstanding]

/-- **What one block does.** -/
theorem step_effect (h : Step F s e o s') : Effect F s e o s' := by
  cases h with
  | request fields session =>
      cases hask : asked F fields with
      | malformed => exact .answered rfl rfl rfl
      | cancel id =>
          refine .answered (r := ⟨true, none⟩) rfl ?_ ?_
          · simp only [accept]
            split
            · exact (outstanding_enqueueClear _).trans (outstanding_stopCurrent s)
            · exact outstanding_enqueueClear s
          · simp only [accept]
            split
            · exact (stopCurrent_fields s).1
            · rfl
      | process id channel data =>
          simp only [accept]
          split
          · exact .answered rfl rfl rfl
          rename_i hfree
          split
          · exact .answered rfl rfl rfl
          split
          · exact .answered rfl rfl rfl
          refine .accepted hask rfl (by simpa using hfree) ?_ rfl
          simp [outstanding, callOf]
  | cancelAll =>
      refine .silent (by rintro _ _ ⟨⟩) ?_ ?_ ?_
      · exact (stopCurrent_fields _).2.2.2.2.1
      · exact (outstanding_enqueueClear _).trans (outstanding_stopCurrent _)
      · exact (stopCurrent_fields _).1
  | timeout h => exact .silent (by rintro _ _ ⟨⟩) rfl rfl rfl
  | clear hr h =>
      refine .silent (by rintro _ _ ⟨⟩) rfl ?_ rfl
      simp [outstanding, h, List.filterMap_cons, callOf]
  | start hr h =>
      refine .silent (by rintro _ _ ⟨⟩) rfl ?_ rfl
      simp [outstanding, h, hr, callOf]
  | finish hr h =>
      refine .silent (by rintro _ _ ⟨⟩) rfl ?_ rfl
      simp [outstanding, hr]
  | complete session h =>
      refine .completed rfl ?_ rfl
      simp [outstanding, h]

/-- Cancellations are never taken back, and the generation only moves on. -/
theorem step_stopped (h : Step F s e o s') :
    s.stopped ⊆ s'.stopped ∧ s.generation ≤ s'.generation := by
  have hstop : ∀ s : FIDO2Service C, s.stopped ⊆ s.stopCurrent.stopped := by
    intro s
    rw [stopCurrent]
    split
    · exact List.subset_cons_self _ _
    · exact List.Subset.refl _
  cases h with
  | request fields session =>
      cases asked F fields with
      | malformed => exact ⟨List.Subset.refl _, le_refl _⟩
      | cancel id =>
          simp only [accept]
          split
          · exact ⟨hstop s, (stopCurrent_fields s).2.2.2.2.2.ge⟩
          · exact ⟨List.Subset.refl _, le_refl _⟩
      | process id channel data =>
          simp only [accept]
          repeat' split
          all_goals exact ⟨List.Subset.refl _, le_refl _⟩
  | cancelAll =>
      refine ⟨hstop { s with generation := s.generation + 1 }, ?_⟩
      have hg := (stopCurrent_fields { s with generation := s.generation + 1 }).2.2.2.2.2
      exact (Nat.le_succ _).trans hg.ge
  | timeout h => exact ⟨List.subset_cons_self _ _, le_refl _⟩
  | clear hr h | start hr h | finish hr h | complete session h =>
      exact ⟨List.Subset.refl _, le_refl _⟩

/-! ### At most one outstanding request -/

/-- At most one request is outstanding, and it is the current one. -/
structure Serial (s : FIDO2Service C) : Prop where
  waiting : (s.current = none ∧ s.outstanding = []) ∨
    ∃ call, s.current = some (call.id, call.number) ∧ s.outstanding = [call]
  earlier : ∀ call ∈ s.outstanding, call.number < s.calls ∧ call.expected ≤ s.generation

theorem serial_initial (core : C.State) : (initial core).Serial :=
  ⟨.inl ⟨rfl, rfl⟩, by simp [outstanding, initial]⟩

theorem Serial.rest_nil {call : Call} {rest : List Call} (hs : s.Serial)
    (h : s.outstanding = call :: rest) : rest = [] := by
  rcases hs.waiting with ⟨-, hw⟩ | ⟨_, -, hw⟩
  · rw [hw] at h
    cases h
  · rw [hw] at h
    exact (List.cons.inj h).2.symm

theorem Serial.step (hs : s.Serial) (h : Step F s e o s') : s'.Serial := by
  have hgen := (step_stopped h).2
  obtain ⟨hw, he⟩ := hs
  cases step_effect h with
  | answered hcalls ho hc | silent _ hcalls ho hc =>
      refine ⟨by rwa [ho, hc], ?_⟩
      intro call hcall
      obtain ⟨hn, hx⟩ := he call (ho ▸ hcall)
      omega
  | accepted hask hcalls hfree ho hc =>
      have hempty : s.outstanding = [] := by
        rcases hw with ⟨-, hw⟩ | ⟨call, hcur, -⟩
        · exact hw
        · rw [hfree] at hcur
          cases hcur
      rw [hempty, List.nil_append] at ho
      refine ⟨.inr ⟨_, hc, ho⟩, ?_⟩
      intro call hcall
      rw [ho] at hcall
      obtain rfl := List.mem_singleton.mp hcall
      exact ⟨by rw [hcalls]; exact Nat.lt_succ_self _, hgen⟩
  | completed hcalls ho hc =>
      have hempty : s'.outstanding = [] := Serial.rest_nil ⟨hw, he⟩ ho
      exact ⟨.inl ⟨hc, hempty⟩, by simp [hempty]⟩

/-! ### Replies -/

/-- The numbers of the request calls that a trace replies to, in order. -/
def repliedTo (t : List (Block C × List (Nat × Reply))) : List Nat :=
  t.flatMap fun x => x.2.map Prod.fst

/-- The number of request calls in a trace. -/
def requests (t : List (Block C × List (Nat × Reply))) : Nat :=
  t.countP fun x => match x.1 with
    | .request _ _ => true
    | _ => false

@[simp] theorem repliedTo_snoc (t : List (Block C × List (Nat × Reply))) (e : Block C)
    (o : List (Nat × Reply)) : repliedTo (t ++ [(e, o)]) = repliedTo t ++ o.map Prod.fst := by
  simp [repliedTo]

@[simp] theorem requests_snoc (t : List (Block C × List (Nat × Reply))) (e : Block C)
    (o : List (Nat × Reply)) :
    requests (t ++ [(e, o)]) = requests t + match e with
      | .request _ _ => 1
      | _ => 0 := by
  cases e <;> simp [requests]

/-- The replies so far: one to every request call that is not outstanding, none to the others. -/
structure Replied (s : FIDO2Service C) (t : List (Block C × List (Nat × Reply))) : Prop where
  serial : s.Serial
  calls : s.calls = requests t
  count : ∀ n, (repliedTo t).count n =
    if n < s.calls ∧ n ∉ s.outstanding.map (·.number) then 1 else 0

theorem Replied.step {t : List (Block C × List (Nat × Reply))} (hs : Replied s t)
    (h : Step F s e o s') : Replied s' (t ++ [(e, o)]) := by
  obtain ⟨hserial, hcalls, hcount⟩ := hs
  refine ⟨hserial.step h, ?_, ?_⟩
  · cases step_effect h with
    | answered hc _ _ | accepted _ hc _ _ _ => rw [hc, hcalls, requests_snoc]
    | silent he hc _ _ =>
        rw [hc, hcalls, requests_snoc]
        cases e with
        | request fields session => exact absurd rfl (he fields session)
        | cancelAll | timeout n | start | finish r c | complete s => rfl
    | completed hc _ _ =>
        rw [hc, hcalls, requests_snoc]
        rfl
  · intro n
    rw [repliedTo_snoc, List.count_append, hcount n]
    cases step_effect h with
    | answered hc ho _ =>
        rw [hc, ho]
        -- the new call has the next number, which is not outstanding
        have hnew : s.calls ∉ s.outstanding.map (·.number) := by
          intro hmem
          obtain ⟨call, hcall, hn⟩ := List.mem_map.mp hmem
          have := (hserial.earlier call hcall).1
          omega
        by_cases hn : n = s.calls
        · subst hn
          simp [hnew]
        · have : n < s.calls + 1 ↔ n < s.calls := by omega
          simp [this, Ne.symm hn]
    | accepted _ hc _ ho _ =>
        rw [hc, ho]
        by_cases hn : n = s.calls
        · subst hn
          simp
        · have : n < s.calls + 1 ↔ n < s.calls := by omega
          simp [this, hn]
    | silent _ hc ho _ => simp [hc, ho]
    | completed hc ho hcur =>
        rename_i session call result
        have hone : s'.outstanding = [] := hserial.rest_nil ho
        have hlt := (hserial.earlier call (by simp [ho])).1
        rw [hc, ho, hone]
        by_cases hn : n = call.number
        · subst hn
          simp [hlt]
        · simp [hn, Ne.symm hn]

/-- **One reply to each request**, along every run. -/
theorem replied_once {core : C.State} {t : List (Block C × List (Nat × Reply))}
    (h : Steps (Step F) (initial core) t s) : Replied s t := by
  have hinit : Replied (initial core) ([] : List (Block C × List (Nat × Reply))) :=
    ⟨serial_initial core, rfl, by simp [repliedTo, initial]⟩
  simpa using h.invariant_trace (I := Replied) (fun hs hstep => hs.step hstep) hinit

/-! ### Cancellation -/

/-- The block cancels the request with the number `n` and the identifier `id`. -/
def Cancels (F : Foundation) (n : Nat) (id : String) (e : Block C) : Prop :=
  e = .cancelAll ∨ e = .timeout n ∨
    ∃ fields session, e = .request fields session ∧ asked F fields = .cancel id

/-- The completion block of the call will find it invalid. -/
def Cancelled (call : Call) (s : FIDO2Service C) : Prop :=
  call.number ∈ s.stopped ∨ call.expected < s.generation

theorem Cancelled.step {call : Call} (hc : Cancelled call s) (h : Step F s e o s') :
    Cancelled call s' := by
  obtain ⟨hstopped, hgen⟩ := step_stopped h
  rcases hc with hc | hc
  · exact .inl (hstopped hc)
  · exact .inr (hc.trans_le hgen)

/-- A cancelling block cancels the outstanding request it names. -/
theorem cancelled_of_cancels {call : Call} (hs : s.Serial) (hc : call ∈ s.outstanding)
    (he : Cancels F call.number call.id e) (h : Step F s e o s') : Cancelled call s' := by
  have hcur : s.current = some (call.id, call.number) := by
    rcases hs.waiting with ⟨-, hw⟩ | ⟨c, hcur, hw⟩
    · rw [hw] at hc
      cases hc
    · rw [hw] at hc
      rw [List.mem_singleton.mp hc, hcur]
  rcases he with rfl | rfl | ⟨fields, session, rfl, hask⟩
  · cases h with
    | cancelAll =>
        refine .inr ?_
        have hg := (stopCurrent_fields { s with generation := s.generation + 1 }).2.2.2.2.2
        exact ((hs.earlier call hc).2.trans_lt (Nat.lt_succ_self _)).trans_le hg.ge
  · cases h with
    | timeout h => exact .inl List.mem_cons_self
  · cases h with
    | request =>
        refine .inl ?_
        simp [hask, accept, hcur, stopCurrent, enqueueClear, stop]

/-- The requests up to the number `n` are no longer outstanding. -/
def Past (n : Nat) (s : FIDO2Service C) : Prop :=
  n < s.calls ∧ ∀ call ∈ s.outstanding, n < call.number

theorem Past.step {n : Nat} (hp : Past n s) (h : Step F s e o s') : Past n s' := by
  obtain ⟨hn, hout⟩ := hp
  cases step_effect h with
  | answered hcalls ho _ => exact ⟨by omega, ho ▸ hout⟩
  | silent _ hcalls ho _ => exact ⟨by omega, ho ▸ hout⟩
  | accepted _ hcalls _ ho _ =>
      refine ⟨by omega, fun call hcall => ?_⟩
      rw [ho] at hcall
      rcases List.mem_append.mp hcall with hcall | hcall
      · exact hout call hcall
      · rw [List.mem_singleton.mp hcall]
        exact hn
  | completed hcalls ho _ =>
      exact ⟨by omega, fun call hcall => hout call (ho ▸ List.mem_cons_of_mem _ hcall)⟩

/-- An outstanding request stays so until its completion block, and then for ever is not. -/
theorem outstanding_step {call : Call} (hs : s.Serial)
    (hc : call ∈ s.outstanding ∨ Past call.number s) (h : Step F s e o s') :
    call ∈ s'.outstanding ∨ Past call.number s' := by
  rcases hc with hc | hc
  · cases step_effect h with
    | answered _ ho _ | silent _ _ ho _ => exact .inl (ho ▸ hc)
    | accepted _ _ _ ho _ => exact .inl (ho ▸ List.mem_append_left _ hc)
    | completed hcalls ho _ =>
        refine .inr ⟨hcalls ▸ (hs.earlier call hc).1, ?_⟩
        simp [hs.rest_nil ho]
  · exact .inr (hc.step h)

/-- What a completion block answers. -/
theorem step_complete {session : Session} (h : Step F s (.complete session) o s') :
    ∃ call result, call ∈ s.outstanding ∧
      o = [(call.number, ⟨true, some (answer (s.valid call session) result)⟩)] := by
  cases h with
  | complete session h => exact ⟨_, _, by simp [outstanding, h], rfl⟩

/-- Between its acceptance and its completion a request is outstanding. -/
theorem outstanding_of_completed {call : Call} {t : List (Block C × List (Nat × Reply))}
    {m : FIDO2Service C} {r : Reply} {session : Session}
    (hs : s.Serial) (hc : call ∈ s.outstanding ∨ Past call.number s) (h : Steps (Step F) s t m)
    (hm : Step F m (.complete session) [(call.number, r)] s') :
    call ∈ s.outstanding ∧ m.outstanding = [call] := by
  have hinv := h.invariant (I := fun s => s.Serial ∧ (call ∈ s.outstanding ∨ Past call.number s))
    (fun hI hstep => ⟨hI.1.step hstep, outstanding_step hI.1 hI.2 hstep⟩) ⟨hs, hc⟩
  -- the call that is completed is outstanding in `m`, and has this number
  have hnot : ¬ Past call.number m := by
    intro hp
    obtain ⟨c, result, hmem, ho⟩ := step_complete hm
    have hlt := hp.2 c hmem
    rw [(Prod.mk.inj (List.cons.inj ho).1).1] at hlt
    exact lt_irrefl _ hlt
  constructor
  · refine hc.resolve_right fun hp => hnot ?_
    exact h.invariant (I := Past call.number) (fun hI hstep => hI.step hstep) hp
  · have hmem := hinv.2.resolve_right hnot
    rcases hinv.1.waiting with ⟨-, hw⟩ | ⟨c, -, hw⟩
    · rw [hw] at hmem
      cases hmem
    · rw [hw] at hmem ⊢
      rw [List.mem_singleton.mp hmem]

/-- A request without a reply of its own block is outstanding. -/
theorem accepted_outstanding {fields : Fields} {session : Session} {id channel : String}
    {data : Data} (h : Step F s (.request fields session) [] s')
    (hask : asked F fields = .process id channel data) :
    ⟨s.calls, id, channel, data, s.generation⟩ ∈ s'.outstanding := by
  generalize hempty : ([] : List (Nat × Reply)) = o at h
  cases step_effect h with
  | answered _ _ _ => cases hempty
  | silent hne _ _ _ => exact absurd rfl (hne fields session)
  | accepted hask' _ _ ho _ =>
      obtain ⟨rfl, rfl, rfl⟩ := Asked.process.inj (hask'.symm.trans hask)
      rw [ho]
      exact List.mem_append_right _ (List.mem_singleton_self _)

/-- **A cancelled request is answered with 0x2d.** -/
theorem cancelled_answer {call : Call} {t₂ t₃ : List (Block C × List (Nat × Reply))}
    {m₁ m₂ m₃ m₄ m₅ : FIDO2Service C} {session : Session} {r : Reply} (hs : m₁.Serial)
    (hc : call ∈ m₁.outstanding) (h₂ : Steps (Step F) m₁ t₂ m₂) (hcancel : Step F m₂ e o m₃)
    (he : Cancels F call.number call.id e) (h₄ : Steps (Step F) m₃ t₃ m₄)
    (hcomp : Step F m₄ (.complete session) [(call.number, r)] m₅) : r = ⟨true, some [0x2d]⟩ := by
  have hI := h₂.invariant (I := fun s => s.Serial ∧ (call ∈ s.outstanding ∨ Past call.number s))
    (fun hI hstep => ⟨hI.1.step hstep, outstanding_step hI.1 hI.2 hstep⟩) ⟨hs, .inl hc⟩
  obtain ⟨hmem, hone⟩ := outstanding_of_completed hI.1 hI.2 (.more hcancel h₄) hcomp
  have hcancelled : Cancelled call m₄ :=
    h₄.invariant (fun hI hstep => hI.step hstep) (cancelled_of_cancels hI.1 hmem he hcancel)
  obtain ⟨c, result, hc', hr⟩ := step_complete hcomp
  rw [hone] at hc'
  obtain rfl := List.mem_singleton.mp hc'
  have hinvalid : m₄.valid c session = false := by
    simp only [valid, decide_eq_false_iff_not]
    rintro ⟨hgen, hstop, -⟩
    rcases hcancelled with h | h
    · exact hstop h
    · exact h.ne hgen.symm
  rw [(Prod.mk.inj (List.cons.inj hr).1).2, hinvalid]
  rfl

/-! ### The completion block can always be reached -/

/-- A run of blocks other than requests, in which the call is answered. -/
def Completes (F : Foundation) (call : Call) (s : FIDO2Service C) : Prop :=
  ∃ t s', Steps (Step F) s t s' ∧ requests t = 0 ∧ call.number ∈ repliedTo t

theorem Completes.more {call : Call} (h : Step F s e o s') (hs : Completes F call s')
    (he : ∀ fields session, e ≠ .request fields session) : Completes F call s := by
  obtain ⟨t, s₁, hrun, hreq, hmem⟩ := hs
  refine ⟨(e, o) :: t, s₁, .more h hrun, ?_, ?_⟩
  · cases e with
    | request fields session => exact absurd rfl (he fields session)
    | cancelAll | timeout n | start | finish r c | complete s => simpa [requests] using hreq
  · simp only [repliedTo, List.flatMap_cons] at hmem ⊢
    exact List.mem_append_right _ hmem

theorem completes_of_completion {call : Call} {result : Data} {rest : List (Call × Data)}
    (h : s.completions = (call, result) :: rest) : Completes F call s :=
  ⟨_, _, .one (.complete s ⟨true, false, true⟩ h), rfl, by simp [repliedTo]⟩

theorem completes_of_running {call : Call} (hcore : ∀ call k, ∃ r k', C.processes call k r k')
    (hr : s.running = some call) (hc : s.completions = []) : Completes F call s := by
  obtain ⟨r, k', hk⟩ := hcore call s.core
  have hcomp : s.completions ++ [(call, r)] = [(call, r)] := by rw [hc, List.nil_append]
  exact .more (.finish s hr hk) (completes_of_completion hcomp) (by rintro _ _ ⟨⟩)

/-- By induction on the queue: the jobs before that of the call are calls of `clear`. -/
theorem completes_of_queued {call : Call} (hcore : ∀ call k, ∃ r k', C.processes call k r k')
    {jobs : List Job} (hj : s.jobs = jobs) (hcalls : jobs.filterMap callOf = [call])
    (hr : s.running = none) (hc : s.completions = []) : Completes F call s := by
  induction jobs generalizing s with
  | nil => cases hcalls
  | cons job jobs ih =>
      cases job with
      | clear =>
          refine .more (.clear s hr hj) (ih rfl ?_ hr hc) (by rintro _ _ ⟨⟩)
          simpa [List.filterMap_cons, callOf] using hcalls
      | process c =>
          have hcall : c = call := by
            simp only [List.filterMap_cons, callOf] at hcalls
            exact (List.cons.inj hcalls).1
          subst hcall
          exact .more (.start s hr hj) (completes_of_running hcore rfl hc) (by rintro _ _ ⟨⟩)

/-- **The completion block of an outstanding request can always be reached.** -/
theorem Serial.completes {call : Call} (hcore : ∀ call k, ∃ r k', C.processes call k r k')
    (hs : s.Serial) (hc : call ∈ s.outstanding) : Completes F call s := by
  have hone : s.outstanding = [call] := by
    rcases hs.waiting with ⟨-, hw⟩ | ⟨c, -, hw⟩
    · rw [hw] at hc
      cases hc
    · rw [hw] at hc ⊢
      rw [List.mem_singleton.mp hc]
  simp only [outstanding] at hone
  cases hcomp : s.completions with
  | cons x rest =>
      obtain ⟨c, result⟩ := x
      obtain rfl : c = call := by
        rw [hcomp] at hone
        exact (List.cons.inj hone).1
      exact completes_of_completion hcomp
  | nil =>
      cases hrun : s.running with
      | some c =>
          obtain rfl : c = call := by
            rw [hcomp, hrun] at hone
            exact (List.cons.inj hone).1
          exact completes_of_running hcore hrun hcomp
      | none =>
          rw [hcomp, hrun] at hone
          exact completes_of_queued hcore rfl hone hrun hcomp

/-! ### The service -/

/-- **Serialisation and cancellation**, for every interleaving of the blocks of the two queues.

* Every request call has exactly one reply, sent by its own block or by a completion block, unless
  it awaits its completion block and has none; and, if `core.process` always returns, that block can
  be reached from every such state.
* At most one call of `core.process` is queued, in flight or awaiting its completion block.
* An accepted request that was cancelled before its completion block is answered with 0x2d.
* `current` is nil exactly when no accepted request awaits its completion block. -/
theorem serial_service (F : Foundation) {core : C.State}
    {t : List (Block C × List (Nat × Reply))} (h : Steps (Step F) (initial core) t s) :
    (s.calls = requests t ∧ (∀ n, (repliedTo t).count n =
        if n < s.calls ∧ n ∉ s.outstanding.map (·.number) then 1 else 0) ∧
      (∀ t₁ e o t₂ n r, t = t₁ ++ (e, o) :: t₂ → (n, r) ∈ o →
        (∃ fields session, e = .request fields session ∧ n = requests t₁) ∨
          ∃ session, e = .complete session) ∧
      ((∀ call k, ∃ r k', C.processes call k r k') →
        ∀ call ∈ s.outstanding, Completes F call s)) ∧
    s.outstanding.length ≤ 1 ∧
    (∀ t₁ t₂ t₃ t₄ fields session id channel data e o session' r,
      t = t₁ ++ (Block.request fields session, []) ::
        (t₂ ++ (e, o) :: (t₃ ++ (Block.complete session', [(requests t₁, r)]) :: t₄)) →
      asked F fields = .process id channel data → Cancels F (requests t₁) id e →
      r = ⟨true, some [0x2d]⟩) ∧
    (s.current = none ↔ s.outstanding = []) := by
  obtain ⟨hserial, hcalls, hcount⟩ := replied_once h
  refine ⟨⟨hcalls, hcount, ?_, fun hcore call hc => hserial.completes hcore hc⟩, ?_, ?_, ?_⟩
  · rintro t₁ e o t₂ n r rfl hmem
    obtain ⟨m, m', hm, hstep, -⟩ := h.split_at
    cases step_effect hstep with
    | answered _ _ _ =>
        refine .inl ⟨_, _, rfl, ?_⟩
        rw [(Prod.mk.inj (List.mem_singleton.mp hmem)).1, (replied_once hm).calls]
    | accepted _ _ _ _ _ | silent _ _ _ _ => cases hmem
    | completed _ _ _ => exact .inr ⟨_, rfl⟩
  · rcases hserial.waiting with ⟨-, hw⟩ | ⟨c, -, hw⟩ <;> simp [hw]
  · rintro t₁ t₂ t₃ t₄ fields session id channel data e o session' r rfl hask he
    obtain ⟨m₀, m₁, hm₀, hreq, hrest⟩ := h.split_at
    obtain ⟨m₂, m₃, hm₂, hcancel, hrest⟩ := hrest.split_at
    obtain ⟨m₄, m₅, hm₄, hcomp, -⟩ := hrest.split_at
    have h₀ := replied_once hm₀
    rw [← h₀.calls] at he hcomp
    exact cancelled_answer (h₀.serial.step hreq) (accepted_outstanding hreq hask) hm₂ hcancel he hm₄
      hcomp
  · rcases hserial.waiting with ⟨hc, hw⟩ | ⟨c, hc, hw⟩ <;> simp [hc, hw]

end FIDO2Service

namespace Sample

/-- Foundation, at one identifier and one message. -/
def foundation : Foundation where
  isUUID := fun id => id = "9B2D3C1E-7A54-4C0F-8E21-5D6F7A8B9C0D"
  base64 := fun s => if s = "BA==" then some [4] else none

/-- An authenticator that answers every request with a status 0. -/
def core : Core where
  State := Unit
  clear := id
  processes := fun _ _ result _ => result = [0]

/-- A GetInfo request. -/
def getInfo : Fields :=
  [("action", some "request"), ("id", some "9B2D3C1E-7A54-4C0F-8E21-5D6F7A8B9C0D"),
    ("channel", some "0000000a"), ("data", some "BA==")]

end Sample

open FIDO2Service in
/-- A request is accepted, everything is cancelled, and `core.process` returns a status 0: the
answer is 0x2d, and the only one. -/
theorem serial_service_cancelled :
    ∃ r s, Steps (Step Sample.foundation) (initial (C := Sample.core) ())
        [(.request Sample.getInfo ⟨true, false, true⟩, []), (.cancelAll, []), (.start, []),
          (.finish [0] (), []), (.complete ⟨true, false, true⟩, [(0, r)])] s ∧
      r = ⟨true, some [0x2d]⟩ ∧ s.outstanding = [] ∧ s.current = none := by
  have hask : asked Sample.foundation Sample.getInfo =
      .process "9B2D3C1E-7A54-4C0F-8E21-5D6F7A8B9C0D" "0000000a" [4] := by
    decide +kernel
  have hrequest := Step.request (F := Sample.foundation) (initial (C := Sample.core) ())
    Sample.getInfo ⟨true, false, true⟩
  rw [hask] at hrequest
  have hrun := Steps.more hrequest <| .more (.cancelAll _) <| .more (.start _ rfl rfl) <|
    .more (.finish _ rfl (show Sample.core.processes _ () [0] () from rfl)) <|
    .one (.complete _ ⟨true, false, true⟩ rfl)
  have h := serial_service Sample.foundation hrun
  refine ⟨_, _, hrun, ?_, rfl, h.2.2.2.mpr rfl⟩
  exact h.2.2.1 [] [] [(.start, []), (.finish [0] (), [])] [] _ _ _ _ _ .cancelAll [] _ _ rfl hask
    (.inl rfl)

end Ashacky.Fido
