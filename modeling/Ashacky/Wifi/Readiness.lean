import Ashacky.Support.Dictionary
import Ashacky.Wifi.Generations

/-!
# Wi-Fi — Readiness

What `bridge_poll` tells an open file.  A file has a cursor for each kind of request, the number
of the request it read last, and is ready when a pending request has another number.

* `readerAfter`, `step_reader`: what a step does to a file's cursors.
* `Cursor`: a cursor is that of the file's last read, some requests ago.
* `request_notification`: a file is ready exactly when there is a pending request that it has not
  read since the request began.
-/

namespace Ashacky.Wifi
open Ashacky.Support

/-! ### Opens and reads -/

/-- The step opens the file. -/
def opensFile (file : Nat) : Event × Output → Bool
  | (.bridgeOpen f _, ⟨.ok _, _⟩) => f = file
  | _ => false

/-- The step is a `GET_SCAN` of the file that succeeds. -/
def readsScan (file : Nat) : Event × Output → Bool
  | (.control f _ _ _ .getScan, ⟨.ok _, _⟩) => f = file
  | _ => false

/-- The step is a `GET_CONNECTION` of the file that succeeds. -/
def readsConnection (file : Nat) : Event × Output → Bool
  | (.control f _ _ _ .getConnection, ⟨.ok _, _⟩) => f = file
  | _ => false

/-- How many requests began since the last read, if there was one since the file was opened. -/
def sinceRead (opens reads : Event × Output → Bool) (begun : Event × Output → Nat)
    (t : Trace) : Option Nat :=
  t.foldl (fun n s => if opens s then none else if reads s then some 0 else n.map (· + begun s))
    none

/-- How many scans began since the file's last `GET_SCAN`. -/
def scansSinceRead (file : Nat) (t : Trace) : Option Nat :=
  sinceRead (opensFile file) (readsScan file) (fun s => (scanAccepted s).length) t

/-- How many connects and disconnects began since the file's last `GET_CONNECTION`. -/
def operationsSinceRead (file : Nat) (t : Trace) : Option Nat :=
  sinceRead (opensFile file) (readsConnection file) (fun s => (operationAccepted s).length) t

/-- What has begun since the last read, one step further. -/
theorem sinceRead_concat (opens reads : Event × Output → Bool) (begun : Event × Output → Nat)
    (t : Trace) (s : Event × Output) :
    sinceRead opens reads begun (t ++ [s]) =
      if opens s then none else if reads s then some 0
      else (sinceRead opens reads begun t).map (· + begun s) := by
  rw [sinceRead, List.foldl_append]
  rfl

/-- Fewer requests of a kind than there are numbers began since the file's last read. -/
structure Spaced (file : Nat) (t : Trace) : Prop where
  scans : ∀ n, scansSinceRead file t = some n → n < 2 ^ 32 - 1
  operations : ∀ n, operationsSinceRead file t = some n → n < 2 ^ 32 - 1

/-! ### The readers -/

/-- The cursors of a file after a step. -/
def readerAfter (p : Priv) (file : Nat) : Event × Output → Option Reader
  | (.bridgeOpen f _, ⟨.ok _, _⟩) => if file = f then some ⟨0, 0⟩ else p.readers.lookup file
  | (.bridgeRelease f, _) => if file = f then none else p.readers.lookup file
  | (.control f _ _ _ .getScan, ⟨.ok _, _⟩) =>
      if file = f then
        (p.readers.lookup f).map ({ · with scan := if p.scan.isSome then p.sequence else 0 })
      else p.readers.lookup file
  | (.control f _ _ _ .getConnection, ⟨.ok _, _⟩) =>
      if file = f then
        (p.readers.lookup f).map ({ · with connection := p.connection.sequence })
      else p.readers.lookup file
  | _ => p.readers.lookup file

namespace Priv

variable (p : Priv)

@[simp] theorem readers_cleared : p.cleared.readers = p.readers := rfl

@[simp] theorem readers_established (bssid : Address) :
    (p.established bssid).readers = p.readers := rfl

/-- Finishing a scan leaves the readers. -/
theorem readers_finishScan (aborted : Bool) : (p.finishScan aborted).2.readers = p.readers := by
  rw [finishScan_eq]

/-- Finishing a connection leaves the readers. -/
theorem readers_finishConnection (status : UInt16) (bssid : Option Address) :
    (p.finishConnection status bssid).2.readers = p.readers := by
  cases hop : p.connection.operation with
  | none => rw [finishConnection_none hop]
  | connect => by_cases hs : status = statusSuccess <;> simp [finishConnection, hop, hs]
  | disconnect => simp [finishConnection, hop]

/-- A disconnect request leaves the readers. -/
theorem readers_disconnectNetwork (hz : UInt64) (reason : UInt16) (jiffies : UInt64) :
    (p.disconnectNetwork hz reason jiffies).2.readers = p.readers := by
  have ht := p.disconnectNetwork_transition hz reason jiffies
  generalize (p.disconnectNetwork hz reason jiffies).1 = o at ht
  generalize (p.disconnectNetwork hz reason jiffies).2 = q at ht ⊢
  cases ht with
  | failed => rfl
  | quiet readers lower running carrier he => cases he
  | scanFinished he => cases he
  | ended he => cases he
  | disconnectStarted hop hq =>
      subst hq
      split <;> rfl

/-- The end of a scan leaves the readers. -/
theorem readers_completeScan (sequence : UInt32) (aborted : Bool) :
    (p.completeScan sequence aborted).2.readers = p.readers := by
  unfold completeScan
  split
  · rfl
  · exact p.readers_finishScan aborted

/-- The result of a connection leaves the readers. -/
theorem readers_completeConnection (completion : ConnectionResult) :
    (p.completeConnection completion).2.readers = p.readers := by
  unfold completeConnection
  split
  · rfl
  split
  · rfl
  split
  · rfl
  exact p.readers_finishConnection _ _

/-- A link report leaves the readers. -/
theorem readers_reportLink (input : LinkInput) (informed : Bool) :
    (p.reportLink input informed).2.readers = p.readers := by
  unfold reportLink
  repeat' split
  all_goals rfl

/-- Stopping the device leaves the readers. -/
theorem readers_stopDevice : p.stopDevice.2.readers = p.readers := by
  have hfinish := readers_finishConnection { p with running := false, scan := none }
    statusUnspecifiedFailure none
  simp only [stopDevice, finishScan_eq]
  generalize finishConnection _ _ _ = r at hfinish ⊢
  obtain ⟨calls, q⟩ := r
  cases hq : q.connected <;> simpa [hq] using hfinish

/-- A command moves the cursors of its own file, and only when it reads. -/
theorem readers_control (file : Nat) (capable copied : Bool) (jiffies : UInt64) (cmd : Command)
    (f : Nat) :
    (p.control file capable copied jiffies cmd).2.readers.lookup f =
      readerAfter p f (.control file capable copied jiffies cmd,
        (p.control file capable copied jiffies cmd).1) := by
  cases hh : capable && copied with
  | false =>
      obtain ⟨x, hx⟩ := control_hindered p file capable copied jiffies cmd hh
      rw [hx]
      cases cmd <;> rfl
  | true =>
      obtain ⟨rfl, rfl⟩ := Bool.and_eq_true_iff.mp hh
      cases cmd with
      | getScan =>
          exact lookup_map_at p.readers file
            ({ · with scan := if p.scan.isSome then p.sequence else 0 }) f
      | getConnection =>
          exact lookup_map_at p.readers file ({ · with connection := p.connection.sequence }) f
      | finishScan sequence => exact congrArg (List.lookup f) (p.readers_completeScan sequence false)
      | abortScan sequence => exact congrArg (List.lookup f) (p.readers_completeScan sequence true)
      | connectionResult completion =>
          exact congrArg (List.lookup f) (p.readers_completeConnection completion)
      | signal sample =>
          show (p.sample sample jiffies).2.readers.lookup f = p.readers.lookup f
          unfold Priv.sample
          repeat' split
          all_goals rfl
      | reportLink input informed =>
          exact congrArg (List.lookup f) (p.readers_reportLink input informed)
      | getCapabilities | getLink | unknown => rfl

end Priv

/-- **Cursors.**  What a step leaves of a file's cursors. -/
theorem step_reader (hz : UInt64) (p : Priv) (e : Event) (file : Nat) :
    (p.step hz e).2.readers.lookup file = readerAfter p file (e, (p.step hz e).1) := by
  cases e with
  | startScan request jiffies =>
      show (p.startScan hz request jiffies).2.readers.lookup file = p.readers.lookup file
      unfold Priv.startScan
      split <;> rfl
  | abortScan => exact congrArg (List.lookup file) (p.readers_finishScan true)
  | connectNetwork sme jiffies =>
      show (p.connectNetwork hz sme jiffies).2.readers.lookup file = p.readers.lookup file
      unfold Priv.connectNetwork
      split
      · rfl
      split
      · rfl
      split <;> rfl
  | disconnectNetwork reason jiffies =>
      exact congrArg (List.lookup file) (p.readers_disconnectNetwork hz reason jiffies)
  | getStation mac jiffies =>
      show (p.getStation hz mac jiffies).2.readers.lookup file = p.readers.lookup file
      unfold Priv.getStation
      split <;> rfl
  | dumpStation idx jiffies =>
      show (p.dumpStation hz idx jiffies).2.readers.lookup file = p.readers.lookup file
      unfold Priv.dumpStation Priv.getStation
      repeat' split
      all_goals rfl
  | scanTimeout jiffies later =>
      show (p.scanTimeout jiffies later).2.readers.lookup file = p.readers.lookup file
      unfold Priv.scanTimeout
      split
      · rfl
      · exact congrArg (List.lookup file) (p.readers_finishScan true)
  | connectionTimeout jiffies later =>
      show (p.connectionTimeout jiffies later).2.readers.lookup file = p.readers.lookup file
      unfold Priv.connectionTimeout
      split
      · rfl
      · exact congrArg (List.lookup file) (p.readers_finishConnection _ _)
  -- Only the commands that read move a cursor.
  | control f capable copied jiffies cmd => exact p.readers_control f capable copied jiffies cmd file
  | publish capable copied buffer informed =>
      show (p.publish capable copied buffer informed).2.readers.lookup file = p.readers.lookup file
      unfold Priv.publish
      dsimp only
      repeat' split
      all_goals rfl
  | bridgeOpen f capable =>
      cases capable with
      | false => rfl
      | true =>
          show ((f, (⟨0, 0⟩ : Reader)) :: p.readers.filter (·.1 ≠ f)).lookup file =
            if file = f then some ⟨0, 0⟩ else p.readers.lookup file
          rw [List.lookup_cons, lookup_filter_ne]
          by_cases hf : file = f
          · simp [hf]
          · have hne : (file == f) = false := by simpa using hf
            rw [hne, if_neg hf, if_neg hf]
  | bridgeRelease f => exact lookup_filter_ne p.readers f file
  | bridgePoll f capable =>
      cases capable <;> rfl
  | openDevice => rfl
  | stopDevice => exact congrArg (List.lookup file) p.readers_stopDevice
  | lowerEvent event lower =>
      show (p.lowerEvent event lower).2.readers.lookup file = p.readers.lookup file
      unfold Priv.lowerEvent
      split
      · rfl
      · cases event <;> rfl

/-- A step of another file leaves the cursors. -/
theorem readerAfter_of_ne {p : Priv} {file f : Nat} (h : file ≠ f) {capable copied : Bool}
    {jiffies : UInt64} {cmd : Command} (o : Output) :
    readerAfter p file (.control f capable copied jiffies cmd, o) = p.readers.lookup file := by
  unfold readerAfter
  split <;> simp_all

/-- A read changes nothing else. -/
theorem read_frame (hz : UInt64) (p : Priv) (file : Nat) (capable copied : Bool) (jiffies : UInt64)
    {cmd : Command} (hcmd : cmd = .getScan ∨ cmd = .getConnection) :
    (p.step hz (.control file capable copied jiffies cmd)).2.scan = p.scan ∧
    (p.step hz (.control file capable copied jiffies cmd)).2.sequence = p.sequence ∧
    (p.step hz (.control file capable copied jiffies cmd)).2.connection = p.connection := by
  rcases hcmd with rfl | rfl <;> cases capable <;> cases copied <;> exact ⟨rfl, rfl, rfl⟩

/-! ### What a cursor stands for -/

/-- A cursor after `count` requests, the last of which is still pending or not: zero before the
file's first read and after one that found nothing, else the number of the request that was
pending at the last read. -/
def Cursor (value : UInt32) (since : Option Nat) (count : Nat) (pending : Prop) : Prop :=
  match since with
  | none => value = 0
  | some n =>
      value = 0 ∧ (pending → 0 < n) ∨ ∃ m, 0 < m ∧ m + n = count ∧ value = sequenceAfter m

namespace Cursor

variable {value : UInt32} {since : Option Nat} {count : Nat} {pending pending' : Prop}

/-- Some requests begin, or none; none is pending then that was not before. -/
theorem later (h : Cursor value since count pending) {n : Nat}
    (hpending : pending' → pending ∨ 0 < n) :
    Cursor value (since.map (· + n)) (count + n) pending' := by
  cases since with
  | none => exact h
  | some k =>
      rcases h with ⟨hzero, hk⟩ | ⟨m, hm, hsum, hvalue⟩
      · refine .inl ⟨hzero, fun hp => ?_⟩
        rcases hpending hp with hp | hn
        · exact Nat.add_pos_left (hk hp) n
        · exact Nat.add_pos_right k hn
      · exact .inr ⟨m, hm, by rw [← hsum, Nat.add_assoc], hvalue⟩

/-- The file is read. -/
theorem read (hpending : pending → value = sequenceAfter count ∧ 0 < count)
    (hnone : ¬pending → value = 0) : Cursor value (some 0) count pending := by
  by_cases hp : pending
  · exact .inr ⟨count, (hpending hp).2, rfl, (hpending hp).1⟩
  · exact .inl ⟨hnone hp, fun h => absurd h hp⟩

/-- The cursor is another number than the pending request's exactly when the file was not read
since the request began. -/
theorem ne_iff (h : Cursor value since count pending) (hp : pending) (hcount : 0 < count)
    (hspaced : ∀ n, since = some n → n < 2 ^ 32 - 1) :
    sequenceAfter count ≠ value ↔ since ≠ some 0 := by
  obtain ⟨count, rfl⟩ := Nat.exists_eq_add_of_lt hcount
  have hne := sequenceAfter_ne_zero (0 + count)
  cases since with
  | none =>
      have hvalue : value = 0 := h
      rw [hvalue]
      exact iff_of_true hne nofun
  | some n =>
      rcases h with ⟨hvalue, hn⟩ | ⟨m, hm, hsum, hvalue⟩
      · rw [hvalue]
        exact iff_of_true hne fun heq => absurd (hn hp) (by simp [Option.some.inj heq])
      · rw [hvalue, ← hsum]
        rcases Nat.eq_zero_or_pos n with rfl | hn
        · simp
        · refine iff_of_true (fun heq => ?_) fun heq => absurd (Option.some.inj heq) (by omega)
          have hfar := sequenceAfter_far hm hn heq
          have hnear := hspaced n rfl
          omega

end Cursor

/-- The cursors of every open file. -/
def Cursors (t : Trace) (p : Priv) : Prop :=
  ∀ file reader, p.readers.lookup file = some reader →
    Cursor reader.scan (scansSinceRead file t) (acceptedScans t).length p.scan.isSome ∧
    Cursor reader.connection (operationsSinceRead file t) (acceptedOperations t).length
      (p.connection.operation ≠ .none)

/-- What a step can leave of a file's cursors: those of a new file, a cursor that was read, or
what they were. -/
theorem readerAfter_cases {p : Priv} {file : Nat} {s : Event × Output} {reader : Reader}
    (h : readerAfter p file s = some reader) :
    (opensFile file s ∧ reader = ⟨0, 0⟩) ∨
    opensFile file s = false ∧ ∃ r, p.readers.lookup file = some r ∧
      reader.scan = (if readsScan file s then if p.scan.isSome then p.sequence else 0 else r.scan) ∧
      reader.connection =
        (if readsConnection file s then p.connection.sequence else r.connection) := by
  unfold readerAfter at h
  split at h
  · rename_i f capable reply calls
    by_cases hf : file = f
    · rw [if_pos hf] at h
      exact .inl ⟨by simp [opensFile, hf], (Option.some.inj h).symm⟩
    · rw [if_neg hf] at h
      exact .inr ⟨by simp [opensFile, Ne.symm hf], reader, h, rfl, rfl⟩
  · rename_i f o
    by_cases hf : file = f
    · rw [if_pos hf] at h
      cases h
    · rw [if_neg hf] at h
      exact .inr ⟨rfl, reader, h, rfl, rfl⟩
  · rename_i f capable copied jiffies reply calls
    by_cases hf : file = f
    · rw [if_pos hf, Option.map_eq_some_iff] at h
      obtain ⟨r, hr, rfl⟩ := h
      exact .inr ⟨rfl, r, hf ▸ hr, by simp [readsScan, hf], rfl⟩
    · rw [if_neg hf] at h
      exact .inr ⟨rfl, reader, h, by simp [readsScan, Ne.symm hf], rfl⟩
  · rename_i f capable copied jiffies reply calls
    by_cases hf : file = f
    · rw [if_pos hf, Option.map_eq_some_iff] at h
      obtain ⟨r, hr, rfl⟩ := h
      exact .inr ⟨rfl, r, hf ▸ hr, rfl, by simp [readsConnection, hf]⟩
    · rw [if_neg hf] at h
      exact .inr ⟨rfl, reader, h, rfl, by simp [readsConnection, Ne.symm hf]⟩
  · rename_i hopen hrelease hscan hconnection
    refine .inr ⟨?_, reader, h, ?_, ?_⟩
    · unfold opensFile
      split
      · exact absurd rfl (hopen _ _ _ _)
      · rfl
    · unfold readsScan
      split
      · exact absurd rfl (hscan _ _ _ _ _ _)
      · rfl
    · unfold readsConnection
      split
      · exact absurd rfl (hconnection _ _ _ _ _ _)
      · rfl

/-- A step that accepts no connect and no disconnect leaves none pending that was not. -/
theorem Transition.operations {hz : UInt64} {p p' : Priv} {e : Event} {o : Output}
    (h : Transition hz p e o p') (hop' : p'.connection.operation ≠ .none) :
    p.connection.operation ≠ .none ∨ 0 < (operationAccepted (e, o)).length := by
  cases h with
  | connectStarted => exact .inr (Nat.succ_pos 0)
  | disconnectStarted => exact .inr (Nat.succ_pos 0)
  | established => exact absurd rfl hop'
  | ended => exact absurd rfl hop'
  | stopped hq =>
      rcases hq with ⟨-, rfl, -⟩ | ⟨-, rfl, -⟩
      · exact absurd rfl hop'
      · exact .inl hop'
  | failed | quiet | scanStarted | scanFinished | linkDown | roamed | sampled => exact .inl hop'

/-- The request that is not pending is zeroed memory. -/
def Zeroed (p : Priv) : Prop := p.connection.operation = .none → p.connection.sequence = 0

/-- Each transition zeroes the request that it ends. -/
theorem Zeroed.step {hz : UInt64} {p p' : Priv} {e : Event} {o : Output} (h : Zeroed p)
    (ht : Transition hz p e o p') : Zeroed p' := by
  cases ht with
  | connectStarted => exact nofun
  | disconnectStarted => exact nofun
  | established => exact fun _ => rfl
  | ended => exact fun _ => rfl
  | stopped hq =>
      rcases hq with ⟨-, rfl, -⟩ | ⟨-, rfl, -⟩
      · exact fun _ => rfl
      · exact h
  | failed | quiet | scanStarted | scanFinished | linkDown | roamed | sampled => exact h

/-- A step that accepts no scan leaves none pending that was not. -/
theorem Transition.scan_pending {hz : UInt64} {p p' : Priv} {e : Event} {o : Output}
    (h : Transition hz p e o p') (hscan : p'.scan.isSome) :
    p.scan.isSome ∨ 0 < (scanAccepted (e, o)).length := by
  have hlist := congrArg List.length h.scans
  obtain ⟨request, hrequest⟩ := Option.isSome_iff_exists.mp hscan
  rw [List.length_append, List.length_append, hrequest] at hlist
  cases hp : p.scan with
  | none =>
      rw [hp] at hlist
      refine .inr ?_
      simp only [Option.toList_none, Option.toList_some, List.length_nil, List.length_singleton]
        at hlist
      omega
  | some request => exact .inl rfl

/-- A read begins no request. -/
theorem accepted_of_read {file : Nat} {s : Event × Output}
    (h : readsScan file s ∨ readsConnection file s) :
    scanAccepted s = [] ∧ operationAccepted s = [] := by
  obtain ⟨e, o⟩ := s
  have he : e.isRequest = false := by
    cases e with
    | control f capable copied jiffies cmd =>
        cases cmd <;> first | rfl | simp_all [readsScan, readsConnection]
    | _ => simp_all [readsScan, readsConnection]
  exact ⟨(accepted_of_not_request he o).1, (accepted_of_not_request he o).2.2⟩

/-- A live number was given to a request. -/
theorem count_pos {n : UInt32} {count : Nat} (h : n = sequenceAfter count) (hne : n ≠ 0) :
    0 < count := by
  rcases Nat.eq_zero_or_pos count with rfl | hpos
  · exact absurd h hne
  · exact hpos

/-- Each step keeps the cursors of every file at what it has read. -/
theorem Cursors.step {hz : UInt64} {t : Trace} {p p' : Priv} {e : Event} {o : Output}
    (h : Cursors t p) (hl : Ledger t p) (hlive : Live p) (hzero : Zeroed p)
    (hs : p.step hz e = (o, p')) : Cursors (t ++ [(e, o)]) p' := by
  have ht := transition_of_step hs
  intro file reader hreader
  have hafter := step_reader hz p e file
  rw [hs, hreader] at hafter
  have hscans : (acceptedScans (t ++ [(e, o)])).length =
      (acceptedScans t).length + (scanAccepted (e, o)).length := by
    simp [acceptedScans]
  have hoperations : (acceptedOperations (t ++ [(e, o)])).length =
      (acceptedOperations t).length + (operationAccepted (e, o)).length := by
    simp [acceptedOperations]
  rw [hscans, hoperations, scansSinceRead, operationsSinceRead, sinceRead_concat, sinceRead_concat]
  rcases readerAfter_cases hafter.symm with ⟨hopen, rfl⟩ | ⟨hopen, r, hr, hscan, hconnection⟩
  · rw [if_pos hopen, if_pos hopen]
    exact ⟨rfl, rfl⟩
  · obtain ⟨hc, hc'⟩ := h file r hr
    rw [hopen, hscan, hconnection]
    refine ⟨?_, ?_⟩
    · cases hread : readsScan file (e, o) with
      | false => exact hc.later ht.scan_pending
      | true =>
          have hnone : scanAccepted (e, o) = [] := (accepted_of_read (.inl hread)).1
          have hpending := ht.scan_pending
          rw [hnone] at hpending ⊢
          refine (Cursor.read (fun hp => ?_) fun hp => ?_).later hpending
          · simp only [hp, if_true]
            exact ⟨hl.sequence, count_pos hl.sequence (hlive.scan hp)⟩
          · simp [hp]
    · cases hread : readsConnection file (e, o) with
      | false => exact hc'.later ht.operations
      | true =>
          have hnone : operationAccepted (e, o) = [] := (accepted_of_read (.inr hread)).2
          have hpending := ht.operations
          rw [hnone] at hpending ⊢
          refine (Cursor.read (fun hp => ?_) fun hp => ?_).later hpending
          · obtain ⟨heq, hne⟩ := hlive.connection hp
            simp only [if_true, heq]
            exact ⟨hl.connectionSequence, count_pos hl.connectionSequence hne⟩
          · simpa using hzero (not_not.mp hp)

/-- A run has the cursors of its reads. -/
theorem Run.cursors {hz : UInt64} {lower : Option Lower} {t : Trace} {p : Priv}
    (h : Run hz (.init lower) t p) : Cursors t p ∧ Ledger t p ∧ Live p ∧ Zeroed p := by
  refine Steps.invariant_trace (I := fun p t => Cursors t p ∧ Ledger t p ∧ Live p ∧ Zeroed p)
    (fun {p t e o p'} hi hs => ?_) h ⟨nofun, .init lower, .init lower, fun _ => rfl⟩
  obtain ⟨hc, hl, hlive, hzero⟩ := hi
  have ht := transition_of_step hs
  exact ⟨hc.step hl hlive hzero hs, hl.step ht, hlive.step ht, hzero.step ht⟩

/-! ### Notification -/

/-- `bridge_poll` reports readiness to the file. -/
def Ready (hz : UInt64) (p : Priv) (file : Nat) : Prop :=
  (p.step hz (.bridgePoll file true)).1.result = .ok (.ready true)

/-- A file is ready when it has not read the pending scan or the pending operation. -/
theorem ready_iff (hz : UInt64) (p : Priv) (file : Nat) :
    Ready hz p file ↔ ∃ reader, p.readers.lookup file = some reader ∧
      (p.scan.isSome ∧ p.sequence ≠ reader.scan ∨
        p.connection.operation ≠ .none ∧ p.connection.sequence ≠ reader.connection) := by
  have hpoll : (p.step hz (.bridgePoll file true)).1.result =
      .ok (.ready ((p.readers.lookup file).any p.pollReady)) := rfl
  rw [Ready, hpoll]
  simp [Option.any_eq_true, Priv.pollReady]

/-- **Notification.**  In every state of every run: an open file is ready exactly when there is a
pending scan that it has not read since the scan began, or a pending connect or disconnect that it
has not read since that began; a read of one file changes the readiness of no other; and a file
that is opened while a request is pending is ready. -/
theorem request_notification (hz : UInt64) (lower : Option Lower) (t : Trace) (p : Priv)
    (h : Run hz (.init lower) t p) :
    (∀ file, (p.readers.lookup file).isSome → Spaced file t →
      (Ready hz p file ↔
        p.scan.isSome ∧ scansSinceRead file t ≠ some 0 ∨
        p.connection.operation ≠ .none ∧ operationsSinceRead file t ≠ some 0)) ∧
    (∀ file other capable copied jiffies cmd, other ≠ file →
      cmd = Command.getScan ∨ cmd = Command.getConnection →
      (Ready hz (p.step hz (.control file capable copied jiffies cmd)).2 other ↔
        Ready hz p other)) ∧
    (∀ file, p.scan.isSome ∨ p.connection.operation ≠ .none →
      Ready hz (p.step hz (.bridgeOpen file true)).2 file) := by
  obtain ⟨hc, hl, hlive, -⟩ := Run.cursors h
  refine ⟨fun file hopen hspaced => ?_, fun file other capable copied jiffies cmd hne hcmd => ?_,
    fun file hpending => ?_⟩
  · obtain ⟨reader, hreader⟩ := Option.isSome_iff_exists.mp hopen
    obtain ⟨hscan, hconnection⟩ := hc file reader hreader
    rw [ready_iff]
    simp only [hreader, Option.some.injEq, exists_eq_left']
    refine or_congr (and_congr_right fun hp => ?_) (and_congr_right fun hp => ?_)
    · rw [hl.sequence]
      exact hscan.ne_iff hp (count_pos hl.sequence (hlive.scan hp)) hspaced.scans
    · obtain ⟨heq, hne⟩ := hlive.connection hp
      rw [heq, hl.connectionSequence]
      exact hconnection.ne_iff hp (count_pos hl.connectionSequence hne) hspaced.operations
  · have hlookup : (p.step hz (.control file capable copied jiffies cmd)).2.readers.lookup other =
        p.readers.lookup other := by
      rw [step_reader]
      exact readerAfter_of_ne hne _
    obtain ⟨hscan, hsequence, hconnection⟩ := read_frame hz p file capable copied jiffies hcmd
    rw [ready_iff, ready_iff, hlookup, hscan, hsequence, hconnection]
  · have hlookup : (p.step hz (.bridgeOpen file true)).2.readers.lookup file = some ⟨0, 0⟩ := by
      rw [step_reader]
      exact if_pos rfl
    refine (ready_iff hz _ file).mpr ⟨⟨0, 0⟩, hlookup, ?_⟩
    rcases hpending with hp | hp
    · exact .inl ⟨hp, hlive.scan hp⟩
    · obtain ⟨heq, hne⟩ := hlive.connection hp
      exact .inr ⟨hp, fun hzero => hne (heq ▸ hzero)⟩

/-- Two files, of which one reads the pending scan. -/
def twoFiles : List Event :=
  [.bridgeOpen 3 true, .bridgeOpen 4 true, .startScan 7 0, .control 3 true true 0 .getScan]

/-- The other file is still ready, and the one that read is not. -/
theorem request_notification_two_files :
    Ready 250 ((Priv.init none).run 250 twoFiles).2 4 ∧
    ¬Ready 250 ((Priv.init none).run 250 twoFiles).2 3 := by
  have h := (request_notification 250 none _ _ (Priv.run_steps 250 (.init none) twoFiles)).1
  have hspaced : ∀ file, file = 3 ∨ file = 4 →
      Spaced file ((Priv.init none).run 250 twoFiles).1 := by
    rintro file (rfl | rfl)
    · refine ⟨fun n hn => ?_, nofun⟩
      cases hn
      decide
    · exact ⟨nofun, nofun⟩
  refine ⟨(h 4 (by decide) (hspaced 4 (.inr rfl))).mpr (.inl (by decide)), fun hready => ?_⟩
  exact absurd ((h 3 (by decide) (hspaced 3 (.inl rfl))).mp hready) (by decide)

end Ashacky.Wifi
