import Ashacky.Support.Base64
import Ashacky.Fido.Service

/-!
# Fido — what a cancel does to other requests

A cancel message stops the transaction of the current request only when the ids agree, but it always
enqueues `core.clear()`, which drops the batch of GetNextAssertion, whoever it belongs to.

A run with a cancel that does not name the current request is compared with the run without it: the
same blocks in the same order, less the block that clears.  The run without it still counts the call,
so that the same transactions have the same names.

* `follow`: while the block waits, the run without the cancel follows step by step.
* `undisturbed_iff`: it follows to the end, with the same replies and the same authenticator, exactly
  when no batch is pending as the block runs.
* `cancel_disturbs`: a late cancel drops the batch of another channel.
-/

namespace Ashacky.Fido
open Ashacky.Support

/-- The authenticator behind the service.  The samples of the transaction and the clock are open. -/
def authenticator {ω : Type} (P : Platform) (store : FIDOKeyStore ω) : Core where
  State := FIDO2Authenticator ω
  clear := FIDO2Authenticator.clear
  processes call s result s' :=
    ∃ tx now, s.process P store call.data call.channel tx now = (result, s')

/-- `core.next`, of the authenticator behind the service. -/
def FIDO2Service.batch {ω : Type} {P : Platform} {store : FIDOKeyStore ω}
    (s : FIDO2Service (authenticator P store)) : Option Batch :=
  FIDO2Authenticator.next s.core

theorem FIDO2Authenticator.clear_eq_self {ω : Type} {s : FIDO2Authenticator ω} (h : s.next = none) :
    s.clear = s := by
  rw [clear, ← h]

variable {C : Core} {F : Foundation}

/-- The serial queue starts a job. -/
def Block.isStart : Block C → Bool
  | .start => true
  | _ => false

/-- The trace without the block that starts the job behind `k` others. -/
def skip : Nat → List (Block C × List (Nat × Reply)) → List (Block C × List (Nat × Reply))
  | _, [] => []
  | k, x :: t =>
      if x.1.isStart then
        if k = 0 then t else x :: skip (k - 1) t
      else x :: skip k t

/-- The number of jobs started. -/
def starts (t : List (Block C × List (Nat × Reply))) : Nat := t.countP (·.1.isStart)

theorem skip_of_le {k : Nat} {t : List (Block C × List (Nat × Reply))} (h : starts t ≤ k) :
    skip k t = t := by
  induction t generalizing k with
  | nil => rfl
  | cons x t ih =>
      rw [starts, List.countP_cons] at h
      rw [skip]
      split
      · next hx =>
          rw [if_pos hx] at h
          rw [if_neg (Nat.ne_of_gt (Nat.lt_of_lt_of_le (Nat.succ_pos _) h)),
            ih (Nat.le_sub_of_add_le h)]
      · next hx =>
          rw [if_neg hx] at h
          rw [ih h]

theorem skip_append (t u : List (Block C × List (Nat × Reply))) (o : List (Nat × Reply)) :
    skip (starts t) (t ++ (.start, o) :: u) = t ++ u := by
  induction t with
  | nil => rfl
  | cons x t ih =>
      rw [starts, List.countP_cons, List.cons_append, skip]
      split
      · rw [if_neg (Nat.succ_ne_zero _), Nat.add_sub_cancel]
        exact congrArg (x :: ·) ih
      · exact congrArg (x :: ·) ih

namespace FIDO2Service

variable {s s' : FIDO2Service C} {e : Block C} {o : List (Nat × Reply)} {k : Nat}

/-- The same service, with one more `clear` behind `k` jobs. -/
def withClear (k : Nat) (s : FIDO2Service C) : FIDO2Service C :=
  { s with jobs := s.jobs.take k ++ .clear :: s.jobs.drop k }

/-- The service that has counted a call. -/
def counted (s : FIDO2Service C) : FIDO2Service C := { s with calls := s.calls + 1 }

/-- A block leads to one state. -/
theorem Step.functional {o' : List (Nat × Reply)} {s₁ s₂ : FIDO2Service C} (h₁ : Step F s e o s₁)
    (h₂ : Step F s e o' s₂) : s₁ = s₂ := by
  cases h₁ with
  | request | cancelAll | timeout =>
      cases h₂
      rfl
  | clear _ h | start _ h =>
      cases h₂ with
      | clear _ h' | start _ h' => cases h.symm.trans h' <;> rfl
  | finish hr _ =>
      cases h₂ with
      | finish hr' _ =>
          cases hr.symm.trans hr'
          rfl
  | complete _ h =>
      cases h₂ with
      | complete _ h' =>
          cases h.symm.trans h'
          rfl

theorem steps_functional {t : List (Block C × List (Nat × Reply))} {s₁ s₂ : FIDO2Service C}
    (h₁ : Steps (Step F) s t s₁) (h₂ : Steps (Step F) s t s₂) : s₁ = s₂ := by
  induction h₁ with
  | refl =>
      cases h₂
      rfl
  | more h _ ih =>
      cases h₂ with
      | more h' r' =>
          obtain rfl := h.functional h'
          exact ih r'

theorem withClear_append (hk : k ≤ s.jobs.length) (job : Job) :
    ({ s with jobs := s.jobs ++ [job] }).withClear k =
      { s.withClear k with jobs := (s.withClear k).jobs ++ [job] } := by
  simp only [withClear, List.take_append_of_le_length hk, List.drop_append_of_le_length hk,
    List.append_assoc, List.cons_append]

theorem stopCurrent_withClear (k : Nat) (s : FIDO2Service C) :
    (s.withClear k).stopCurrent = s.stopCurrent.withClear k := by
  simp only [stopCurrent, withClear]
  split <;> rfl

theorem jobs_stopCurrent (s : FIDO2Service C) : s.stopCurrent.jobs = s.jobs := by
  rw [stopCurrent]
  split <;> rfl

/-- A request is taken in the same way. -/
theorem accept_withClear (hk : k ≤ s.jobs.length) (session : Session) (number : Nat) (a : Asked) :
    (s.withClear k).accept session number a =
        ((s.accept session number a).1, (s.accept session number a).2.withClear k) ∧
      k ≤ (s.accept session number a).2.jobs.length := by
  cases a with
  | malformed => exact ⟨rfl, hk⟩
  | cancel id =>
      have hlater : ∀ {m : FIDO2Service C}, k ≤ m.jobs.length →
          (m.withClear k).enqueueClear = m.enqueueClear.withClear k ∧
            k ≤ m.enqueueClear.jobs.length := by
        intro m hm
        exact ⟨(withClear_append hm .clear).symm, hm.trans (by simp [enqueueClear])⟩
      simp only [accept]
      by_cases hid : s.current.map Prod.fst = some id
      · rw [if_pos hid, if_pos (show (s.withClear k).current.map Prod.fst = some id from hid),
          stopCurrent_withClear]
        obtain ⟨heq, hle⟩ := hlater (m := s.stopCurrent) (by rw [jobs_stopCurrent]; exact hk)
        exact ⟨by rw [heq], hle⟩
      · rw [if_neg hid, if_neg (show ¬ (s.withClear k).current.map Prod.fst = some id from hid)]
        obtain ⟨heq, hle⟩ := hlater hk
        exact ⟨by rw [heq], hle⟩
  | process id channel data =>
      simp only [accept]
      by_cases hbusy : s.current.isSome
      · rw [if_pos hbusy, if_pos (show (s.withClear k).current.isSome from hbusy)]
        exact ⟨rfl, hk⟩
      rw [if_neg hbusy, if_neg (show ¬ (s.withClear k).current.isSome from hbusy)]
      split
      · exact ⟨rfl, hk⟩
      split
      · exact ⟨rfl, hk⟩
      refine ⟨Prod.ext rfl ?_, hk.trans (by simp)⟩
      have happend := withClear_append hk (.process ⟨number, id, channel, data, s.generation⟩)
      simp only [withClear] at happend ⊢
      rw [FIDO2Service.mk.injEq] at happend ⊢
      obtain ⟨-, -, -, -, -, hjobs, -⟩ := happend
      exact ⟨rfl, rfl, rfl, rfl, rfl, hjobs.symm, rfl, rfl, rfl⟩

/-- The next job of a service with a `clear` behind others is its own next job. -/
theorem jobs_withClear {job : Job} {jobs : List Job} (hk : k ≤ s.jobs.length) (hpos : 0 < k)
    (h : (s.withClear k).jobs = job :: jobs) :
    ∃ rest, s.jobs = job :: rest ∧ k - 1 ≤ rest.length ∧
      jobs = rest.take (k - 1) ++ .clear :: rest.drop (k - 1) := by
  cases hs : s.jobs with
  | nil =>
      rw [hs] at hk
      exact absurd (hpos.trans_le hk) (Nat.lt_irrefl 0)
  | cons first rest =>
      obtain ⟨k, rfl⟩ := Nat.exists_eq_succ_of_ne_zero hpos.ne'
      rw [hs] at hk
      simp only [withClear, hs, List.take_succ_cons, List.drop_succ_cons, List.cons_append,
        List.cons.injEq] at h
      exact ⟨rest, by rw [h.1], Nat.le_of_succ_le_succ hk, h.2.symm⟩

/-- **While the `clear` waits**, the service without it takes the same steps. -/
theorem follow (hk : k ≤ s.jobs.length) (h : Step F (s.withClear k) e o s') :
    (e = .start ∧ o = [] ∧ k = 0 ∧ s' = { s with core := C.clear s.core }) ∨
      ∃ m, Step F s e o m ∧ (e.isStart → 0 < k) ∧ s' = m.withClear (if e.isStart then k - 1 else k) ∧
        (if e.isStart then k - 1 else k) ≤ m.jobs.length := by
  cases h with
  | request fields session =>
      obtain ⟨heq, hle⟩ := accept_withClear hk session s.calls (asked F fields)
      change _ ∨ ∃ m, Step F s _ (((s.withClear k).accept session s.calls (asked F fields)).1.map
        fun r => (s.calls, r)).toList m ∧ _ ∧
          { ((s.withClear k).accept session s.calls (asked F fields)).2 with
            calls := s.calls + 1 } = _ ∧ _
      rw [heq]
      exact .inr ⟨_, .request s fields session, nofun, rfl, hle⟩
  | cancelAll =>
      refine .inr ⟨_, .cancelAll s, nofun, ?_, ?_⟩
      · change (({ s with generation := s.generation + 1 } : FIDO2Service C).withClear
          k).stopCurrent.enqueueClear = _
        rw [stopCurrent_withClear]
        exact (withClear_append (by rw [jobs_stopCurrent]; exact hk) .clear).symm
      · refine hk.trans ?_
        change _ ≤ (({ s with generation := s.generation + 1 } : FIDO2Service C).stopCurrent.jobs ++
          [Job.clear]).length
        rw [jobs_stopCurrent, List.length_append]
        exact Nat.le_add_right _ _
  | timeout h => exact .inr ⟨_, .timeout s h, nofun, rfl, hk⟩
  | clear hr h =>
      rcases Nat.eq_zero_or_pos k with rfl | hpos
      · -- the `clear` itself
        obtain ⟨-, rfl⟩ := List.cons.inj h
        exact .inl ⟨rfl, rfl, rfl, rfl⟩
      · obtain ⟨rest, hrest, hle, rfl⟩ := jobs_withClear hk hpos h
        exact .inr ⟨_, .clear s hr hrest, fun _ => hpos, rfl, hle⟩
  | start hr h =>
      rcases Nat.eq_zero_or_pos k with rfl | hpos
      · cases h
      · obtain ⟨rest, hrest, hle, rfl⟩ := jobs_withClear hk hpos h
        exact .inr ⟨_, .start s hr hrest, fun _ => hpos, rfl, hle⟩
  | finish hr h => exact .inr ⟨_, .finish s hr h, nofun, rfl, hk⟩
  | complete session h => exact .inr ⟨_, .complete s session h, nofun, rfl, hk⟩

/-- The run up to the `clear`, and the run through it. -/
theorem follow_run {t : List (Block C × List (Nat × Reply))} (hk : k ≤ s.jobs.length)
    (h : Steps (Step F) (s.withClear k) t s') :
    (starts t ≤ k ∧ ∃ m, Steps (Step F) s t m ∧ s' = m.withClear (k - starts t)) ∨
      ∃ u v m, t = u ++ (.start, []) :: v ∧ starts u = k ∧ Steps (Step F) s u m ∧
        Steps (Step F) (s.withClear k) u (m.withClear 0) ∧
        Steps (Step F) { m with core := C.clear m.core } v s' := by
  induction t generalizing s k with
  | nil =>
      cases h
      exact .inl ⟨Nat.zero_le k, s, .refl s, rfl⟩
  | cons x t ih =>
      cases h with
      | @more _ s₁ _ e o _ hstep hrest =>
          rcases follow hk hstep with ⟨rfl, rfl, rfl, rfl⟩ | ⟨m, hm, hpos, rfl, hle⟩
          · exact .inr ⟨[], t, s, rfl, rfl, .refl s, .refl _, hrest⟩
          · have hcount : starts ((e, o) :: t) = starts t + if e.isStart then 1 else 0 := by
              rw [starts, List.countP_cons]
              rfl
            rcases ih hle hrest with ⟨hstarts, m', hm', rfl⟩ | ⟨u, v, m', rfl, hu, hm', hclear, hv⟩
            · refine .inl ⟨?_, m', .more hm hm', ?_⟩
              · rw [hcount]
                split at hstarts
                · next hs =>
                    have := hpos hs
                    rw [if_pos hs]
                    omega
                · next hs =>
                    rw [if_neg hs]
                    exact hstarts
              · rw [hcount]
                congr 1
                split <;> omega
            · refine .inr ⟨(e, o) :: u, v, m', rfl, ?_, .more hm hm', .more hstep hclear, hv⟩
              have hcount' : starts ((e, o) :: u) = starts u + if e.isStart then 1 else 0 := by
                rw [starts, List.countP_cons]
                rfl
              rw [hcount', hu]
              split
              · next hs =>
                  have := hpos hs
                  omega
              · rfl

/-- The service after a cancel that does not name the current request. -/
theorem cancelled_eq {fields : Fields} {session : Session} {id : String}
    (h : Step F s (.request fields session) o s') (hask : asked F fields = .cancel id)
    (hid : s.current.map Prod.fst ≠ some id) : s' = s.counted.withClear s.jobs.length := by
  cases h with
  | request =>
      rw [hask, accept, if_neg hid]
      simp only [enqueueClear, counted, withClear, List.take_length, List.drop_length]

/-- Along the run `t` from `s'`, with the cancel, the run without it goes through the same blocks with
the same replies, and the authenticator is the same. -/
def Undisturbed (F : Foundation) (s s' : FIDO2Service C) (t : List (Block C × List (Nat × Reply))) :
    Prop :=
  ∀ u v m, t = u ++ v → Steps (Step F) s' u m →
    ∃ m', Steps (Step F) s.counted (skip s.jobs.length u) m' ∧ m'.core = m.core

end FIDO2Service

open FIDO2Service in
/-- **A cancel of another request disturbs nothing**, in any run after it, exactly if no batch of
GetNextAssertion is pending when the block that it enqueued runs. -/
theorem undisturbed_iff {ω : Type} (P : Platform) (store : FIDOKeyStore ω) (F : Foundation)
    {s s' m : FIDO2Service (authenticator P store)} {fields : Fields} {session : Session} {id : String}
    {o : List (Nat × Reply)} {t : List (Block (authenticator P store) × List (Nat × Reply))}
    (hs : Step F s (.request fields session) o s') (hask : asked F fields = .cancel id)
    (hid : s.current.map Prod.fst ≠ some id) (h : Steps (Step F) s' t m) :
    Undisturbed F s s' t ↔
      ∀ u v (n : FIDO2Service (authenticator P store)), t = u ++ (.start, []) :: v →
        starts u = s.jobs.length → Steps (Step F) s' u n → n.batch = none := by
  obtain rfl := cancelled_eq hs hask hid
  have hk : s.jobs.length ≤ s.counted.jobs.length := Nat.le_refl _
  constructor
  · rintro hsame u v n rfl hu hn
    obtain ⟨n₁, n₂, h₁, hstart, -⟩ := h.split_at
    obtain rfl := steps_functional hn h₁
    have hafter := h₁.append (.one hstart)
    -- before the block runs, the two runs are in step
    rcases follow_run hk hn with ⟨-, b, hb, rfl⟩ | ⟨u', v', _, rfl, hu', -⟩
    · rw [hu, Nat.sub_self] at hstart
      rcases follow (Nat.zero_le _) hstart with ⟨-, -, -, rfl⟩ | ⟨_, -, hpos, -⟩
      · obtain ⟨m', hm', hcore⟩ := hsame (u ++ [(.start, [])]) v _ (by simp) hafter
        rw [← hu, skip_append, List.append_nil] at hm'
        obtain rfl := steps_functional hm' hb
        exact congrArg FIDO2Authenticator.next hcore
      · exact absurd (hpos rfl) (Nat.lt_irrefl 0)
    · rw [starts, List.countP_append, List.countP_cons_of_pos rfl] at hu
      rw [starts] at hu'
      omega
  · rintro hquiet u v n rfl hn
    rcases follow_run hk hn with ⟨hle, b, hb, rfl⟩ | ⟨u', v', b, rfl, hu', hb, hclear, hv'⟩
    · rw [skip_of_le hle]
      exact ⟨b, hb, rfl⟩
    · -- the block has run, and found nothing to drop
      have hnone : b.batch = none :=
        hquiet u' (v' ++ v) (b.withClear 0) (by simp) hu' hclear
      have hcore : (authenticator P store).clear b.core = b.core :=
        FIDO2Authenticator.clear_eq_self hnone
      rw [hcore] at hv'
      rw [← hu', skip_append]
      exact ⟨n, hb.append hv', rfl⟩

namespace Sample

def strict : Foundation where
  isUUID := fun id => id.length = 36
  base64 := fun text => Base64.decode text.toList

/-- A discoverable sign-in on one channel. -/
def signIn : Fields :=
  [("action", some "request"), ("id", some "6a1f0c52-8e0b-4b7e-9b0e-2f4d5c6b7a89"),
    ("channel", some "0000000a"),
    ("data", some (String.ofList (Base64.encode (0x02 :: getAssertion []))))]

/-- A cancel of another request. -/
def otherCancel : Fields :=
  [("action", some "cancel"), ("id", some "0d9e8c7b-6a5f-4e3d-8c2b-1a0f9e8d7c6b")]

theorem asked_signIn : asked strict signIn =
    .process "6a1f0c52-8e0b-4b7e-9b0e-2f4d5c6b7a89" "0000000a" (0x02 :: getAssertion []) := by
  decide +kernel

theorem asked_otherCancel :
    asked strict otherCancel = .cancel "0d9e8c7b-6a5f-4e3d-8c2b-1a0f9e8d7c6b" := by
  decide +kernel

/-- Two passkeys. -/
def passkeys : FIDOKeyStore Unit := store [credential 1 2, credential 2 3]

/-- Signing in with either of them leaves the other to be fetched. -/
theorem signedIn :
    ∃ result core, (authenticator platform passkeys).processes
        ⟨0, "6a1f0c52-8e0b-4b7e-9b0e-2f4d5c6b7a89", "0000000a", 0x02 :: getAssertion [], 0⟩
        (⟨(), none, []⟩ : FIDO2Authenticator Unit) result core ∧
      (FIDO2Authenticator.next core).isSome = true := by
  have hnext : (FIDO2Authenticator.process platform passkeys (0x02 :: getAssertion []) "0000000a"
      transaction 0 ⟨(), none, []⟩).2.next.isSome = true := by
    decide +kernel
  generalize hr : FIDO2Authenticator.process platform passkeys (0x02 :: getAssertion []) "0000000a"
    transaction 0 ⟨(), none, []⟩ = r at hnext
  exact ⟨r.1, r.2, ⟨transaction, 0, hr⟩, hnext⟩

/-- The service with them. -/
def waiting (core : FIDO2Authenticator Unit) : FIDO2Service (authenticator platform passkeys) :=
  .initial core

open FIDO2Service in
theorem step_otherCancel {s : FIDO2Service (authenticator platform passkeys)} (hs : s.current = none)
    (hjobs : s.jobs = []) :
    Step strict s (.request otherCancel ⟨true, false, true⟩) [(s.calls, ⟨true, none⟩)]
      (s.counted.withClear 0) := by
  have h := Step.request (F := strict) s otherCancel ⟨true, false, true⟩
  rw [asked_otherCancel, accept, if_neg (by simp [hs])] at h
  simp only [enqueueClear, hjobs] at h
  rw [counted, withClear]
  simp only [hjobs]
  exact h

open FIDO2Service in
/-- The first request, served before anything else happens. -/
theorem steps_served {core core' : C.State} {fields : Fields} {id channel : String} {data result : Data}
    (hask : asked F fields = .process id channel data)
    (h : C.processes ⟨0, id, channel, data, 0⟩ core result core') :
    ∃ t, Steps (Step F) (initial core) t (initial core').counted := by
  have hrequest := Step.request (F := F) (initial core) fields ⟨true, false, true⟩
  have haccept : (initial core).accept ⟨true, false, true⟩ 0 (.process id channel data) =
      (none, { initial core with
        current := some (id, 0)
        timers := [0]
        jobs := [.process ⟨0, id, channel, data, 0⟩] }) := by
    simp [accept, initial]
  rw [hask, show (initial core).calls = 0 from rfl, haccept] at hrequest
  have hrun := Steps.more hrequest <| .more (.start _ rfl rfl) <| .more (.finish _ rfl h) <|
    .one (.complete _ ⟨true, false, true⟩ rfl)
  exact ⟨_, hrun⟩

end Sample

namespace Sample

/-- A store with one passkey. -/
def single : FIDOKeyStore Unit := store [credential 1 2]

/-- Signing in with it leaves nothing to be fetched. -/
theorem signedIn_single :
    ∃ result core, (authenticator platform single).processes
        ⟨0, "6a1f0c52-8e0b-4b7e-9b0e-2f4d5c6b7a89", "0000000a", 0x02 :: getAssertion [], 0⟩
        (⟨(), none, []⟩ : FIDO2Authenticator Unit) result core ∧
      result.head? = some 0 ∧ FIDO2Authenticator.next core = none := by
  have hnext : (FIDO2Authenticator.process platform single (0x02 :: getAssertion []) "0000000a"
      transaction 0 ⟨(), none, []⟩).2.next.isNone = true := by
    decide +kernel
  have hstatus : (FIDO2Authenticator.process platform single (0x02 :: getAssertion []) "0000000a"
      transaction 0 ⟨(), none, []⟩).1.head? = some 0 := by
    decide +kernel
  generalize hr : FIDO2Authenticator.process platform single (0x02 :: getAssertion []) "0000000a"
    transaction 0 ⟨(), none, []⟩ = r at hnext hstatus
  exact ⟨r.1, r.2, ⟨transaction, 0, hr⟩, hstatus, Option.isNone_iff_eq_none.mp hnext⟩

/-- The service that processes the sign-in. -/
def signing : FIDO2Service (authenticator platform single) where
  core := (⟨(), none, []⟩ : FIDO2Authenticator Unit)
  current := some ("6a1f0c52-8e0b-4b7e-9b0e-2f4d5c6b7a89", 0)
  generation := 0
  stopped := []
  timers := [0]
  jobs := []
  running := some
    ⟨0, "6a1f0c52-8e0b-4b7e-9b0e-2f4d5c6b7a89", "0000000a", 0x02 :: getAssertion [], 0⟩
  completions := []
  calls := 1

open FIDO2Service in
theorem steps_signing : Steps (Step strict) (initial (⟨(), none, []⟩ : FIDO2Authenticator Unit))
    [(.request signIn ⟨true, false, true⟩, []), (.start, [])] signing := by
  have h := Step.request (C := authenticator platform single) (F := strict)
    (initial (⟨(), none, []⟩ : FIDO2Authenticator Unit)) signIn ⟨true, false, true⟩
  rw [asked_signIn] at h
  exact .more h (.one (.start _ rfl rfl))

end Sample

open FIDO2Service in
/-- A sign-in is being processed when the cancel of another request arrives.  The clearing block
runs right after the sign-in, which has left nothing to fetch: its reply goes out, and nothing is
disturbed. -/
theorem undisturbed_signing :
    (∃ t₀, Steps (Step Sample.strict) (initial (⟨(), none, []⟩ : FIDO2Authenticator Unit)) t₀
      Sample.signing) ∧
    ∃ result core s' m,
      let t := [(Block.finish result core, []), (.start, []),
        (.complete ⟨true, false, true⟩, [(0, ⟨true, some result⟩)])]
      Step Sample.strict Sample.signing (.request Sample.otherCancel ⟨true, false, true⟩)
        [(1, ⟨true, none⟩)] s' ∧
      Steps (Step Sample.strict) s' t m ∧ result.head? = some 0 ∧
      Undisturbed Sample.strict Sample.signing s' t := by
  obtain ⟨result, core, hprocess, hstatus, hnext⟩ := Sample.signedIn_single
  have hcancel := Step.request (F := Sample.strict) Sample.signing Sample.otherCancel
    ⟨true, false, true⟩
  rw [Sample.asked_otherCancel] at hcancel
  have hfinish : Step Sample.strict ({ Sample.signing with calls := 2 }.withClear 0)
      (.finish result core) [] _ := .finish _ rfl hprocess
  have hrun := Steps.more hfinish <| .more (.clear _ rfl rfl) <|
    .one (.complete _ ⟨true, false, true⟩ rfl)
  refine ⟨⟨_, Sample.steps_signing⟩, result, core, _, _, hcancel, hrun, hstatus, ?_⟩
  refine (undisturbed_iff _ _ _ hcancel Sample.asked_otherCancel (by decide) hrun).mpr ?_
  intro u v n ht hu hn
  -- the clearing block is the second block after the cancel
  match u, ht with
  | [], ht => simp at ht
  | [x], ht =>
      obtain ⟨rfl, -⟩ := List.cons.inj ht
      obtain rfl := steps_functional hn (.one hfinish)
      exact hnext
  | [x, y], ht => simp at ht
  | x :: y :: z :: u, ht => simp at ht

open FIDO2Service in
/-- **A late cancel disturbs another channel**: the passkeys that are left to fetch are gone. -/
theorem cancel_disturbs :
    ¬ ∀ (ω : Type) (P : Platform) (store : FIDOKeyStore ω) (F : Foundation)
      (s s' m : FIDO2Service (authenticator P store)) (core : FIDO2Authenticator ω)
      (t₀ t : List (Block (authenticator P store) × List (Nat × Reply))) (fields : Fields)
      (session : Session) (id : String) (o : List (Nat × Reply)), core.next = none →
      Steps (Step F) (initial core) t₀ s → Step F s (.request fields session) o s' →
      asked F fields = .cancel id → s.current.map Prod.fst ≠ some id → Steps (Step F) s' t m →
      Undisturbed F s s' t := by
  intro hall
  obtain ⟨result, core, hprocess, hnext⟩ := Sample.signedIn
  obtain ⟨t, hrun⟩ := Sample.steps_served Sample.asked_signIn hprocess
  have hcancel := Sample.step_otherCancel (s := (Sample.waiting core).counted) rfl rfl
  have hclear := Steps.one (Step.clear (F := Sample.strict)
    ((Sample.waiting core).counted.counted.withClear 0) rfl rfl)
  have hsame := hall Unit Sample.platform Sample.passkeys Sample.strict _ _ _ _ t _ _ _ _ _ rfl hrun
    hcancel Sample.asked_otherCancel nofun hclear
  obtain ⟨m', hm', hcore⟩ := hsame [(.start, [])] [] _ rfl hclear
  cases hm'
  rw [show core = FIDO2Authenticator.clear core from hcore] at hnext
  cases hnext

end Ashacky.Fido
