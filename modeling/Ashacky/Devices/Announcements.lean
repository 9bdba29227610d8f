import Ashacky.Support.Announce
import Ashacky.Devices.Operations

/-!
# Devices — announcements of the host's Bluetooth service

The guest reads the host's devices again when the revision in the status changes.  The service does
not announce each change by itself: `invalidate` has one announcement come a little later, for all the
changes until then, and the revision goes up with it.

* `Quiet`: a call announces nothing, and makes an announcement due where it changes the view.
* `step_announces`: what an event does to the view, to what is due and to the revision.
* `revision_tells`: whoever finds the revision as it was would be told the same, or an announcement is
  on its way.
-/

namespace Ashacky.Devices.BluetoothService
open Ashacky.Support

namespace Host

/-- What is announced: what `bluetooth-devices` shows of the state, and whether it can be trusted. -/
def view (h : Host) : Option Operation × Bool × List Nat × Bool :=
  (h.operation, h.scanning, h.devices, h.observationsComplete)

/-- An announcement is due, or there are none any more. -/
def Due (h : Host) : Prop := h.stopped = true ∨ h.pendingChange ≠ none

end Host

/-- How often `changed` is called. -/
def announced (o : List Effect) : Nat :=
  o.countP fun
    | .changed => true
    | _ => false

@[simp] theorem announced_append (o p : List Effect) : announced (o ++ p) = announced o + announced p :=
  List.countP_append

/-- What is due is on the main queue, and nothing is after `stop`. -/
structure Scheduled (h : Host) : Prop where
  block : ∀ work, h.pendingChange = some work → .change work ∈ h.blocks
  stopped : h.stopped = true → h.pendingChange = none ∧ h.observationsComplete = false

/-- A call announces nothing: it keeps the view, or an announcement is due after it. -/
structure Quiet (h : Host) (r : List Effect × Host) : Prop where
  news : Heralded Host.view Host.Due 0 h r.2
  silent : announced r.1 = 0
  counter : r.2.revisionGeneration = h.revisionGeneration
  scheduled : Scheduled h → Scheduled r.2

/-- Nothing of what announcements rest on is touched. -/
structure Frame (h g : Host) : Prop where
  stopped : g.stopped = h.stopped
  pendingChange : g.pendingChange = h.pendingChange
  counter : g.revisionGeneration = h.revisionGeneration
  blocks : ∀ work, .change work ∈ h.blocks → .change work ∈ g.blocks
  complete : h.stopped = true → h.observationsComplete = false → g.observationsComplete = false

section Quiet
variable {h g : Host} {r p : List Effect × Host} {o : List Effect} {S : Surroundings}

/-- States that agree on what schedules an announcement frame each other. -/
theorem Frame.of (hsame : (g.stopped, g.pendingChange, g.revisionGeneration, g.blocks,
    g.observationsComplete) = (h.stopped, h.pendingChange, h.revisionGeneration, h.blocks,
      h.observationsComplete)) : Frame h g := by
  simp only [Prod.mk.injEq] at hsame
  obtain ⟨hs, hp, hr, hb, ho⟩ := hsame
  exact ⟨hs, hp, hr, fun _ h => hb ▸ h, fun _ h => ho.trans h⟩

/-- What a pending change needs stays scheduled when nothing of it is touched. -/
theorem Frame.scheduled (F : Frame h g) (C : Scheduled h) : Scheduled g where
  block := fun work hw => F.blocks work (C.block work (F.pendingChange ▸ hw))
  stopped := fun hs => by
    obtain ⟨hp, hc⟩ := C.stopped (F.stopped ▸ hs)
    exact ⟨F.pendingChange.trans hp, F.complete (F.stopped ▸ hs) hc⟩

/-- An announcement that is due stays due. -/
theorem Frame.due (F : Frame h g) (hd : h.Due) : g.Due := by
  rw [Host.Due, F.stopped, F.pendingChange]
  exact hd

/-- A step that shows the same view and announces nothing is quiet. -/
theorem Frame.same (F : Frame h g) (hview : g.view = h.view) (ho : announced o = 0) :
    Quiet h (o, g) where
  news := Heralded.same hview F.due
  silent := ho
  counter := F.counter
  scheduled := F.scheduled

theorem Quiet.refl (h : Host) (ho : announced o = 0) : Quiet h (o, h) :=
  Frame.same (.of rfl) rfl ho

/-- The effects of a call are those of its last part. -/
theorem Quiet.trans (Q : Quiet h ([], g)) (Q' : Quiet g r) : Quiet h r where
  news := Nat.zero_add 0 ▸ Q.news.trans Q'.news
  silent := Q'.silent
  counter := Q'.counter.trans Q.counter
  scheduled := Q'.scheduled ∘ Q.scheduled

/-- Which effects come with a quiet step does not matter, as long as none announces. -/
theorem Quiet.effects (Q : Quiet h r) (ho : announced o = 0) : Quiet h (o, r.2) :=
  { Q with silent := ho }

/-- Other effects come before them. -/
theorem Quiet.append (Q : Quiet h r) (ho : announced o = 0) : Quiet h (o ++ r.1, r.2) :=
  { Q with silent := by rw [announced_append, ho, Q.silent] }

/-- What follows `invalidate` is due. -/
theorem Host.invalidate_due (h : Host) : h.invalidate.Due := by
  rw [Host.invalidate]
  split
  · exact .inr (Option.some_ne_none _)
  · rename_i hn
    by_cases hs : h.stopped = true
    · exact .inl hs
    · exact .inr fun hp => hn ⟨by simpa using hs, hp⟩

/-- A change that is announced anew is scheduled. -/
theorem Scheduled.invalidate (C : Scheduled h) : Scheduled h.invalidate := by
  rw [Host.invalidate]
  split
  · rename_i hn
    refine ⟨?_, fun hs => absurd hs (by simpa using hn.1)⟩
    rintro work ⟨⟩
    exact List.mem_append_right _ (List.mem_singleton_self _)
  · exact C

/-- A call that ends with `invalidate` may change the view. -/
theorem Frame.invalidate (F : Frame h g) (ho : announced o = 0) : Quiet h (o, g.invalidate) where
  news := Heralded.of_due g.invalidate_due
  silent := ho
  counter := by rw [Host.invalidate]; split <;> exact F.counter
  scheduled := fun C => (F.scheduled C).invalidate

/-! ### The calls -/

namespace Host

/-- Opening the manager makes no announcement itself. -/
theorem prepareCentral_quiet (h : Host) (permission : Bool) :
    Quiet h ([], h.prepareCentral S permission) := by
  rw [prepareCentral]
  split
  · exact Frame.same (.of rfl) rfl rfl
  · exact .refl h rfl

/-- The end of a pair operation makes no announcement itself: one is due. -/
theorem finishPairOperation_quiet {device : Nat} {result : Int} :
    Quiet h ([], h.finishPairOperation S device result) := by
  rw [finishPairOperation]
  split
  · exact .refl h rfl
  · exact Frame.invalidate (.of rfl) rfl

/-- The attempt of a pairing may go before its operation ends. -/
theorem finishPairOperation_frame {device : Nat} {result : Int} (F : Frame h g)
    (hview : g.view = h.view) : Quiet h ([], g.finishPairOperation S device result) :=
  (F.same hview rfl).trans finishPairOperation_quiet

/-- A block that announces nothing may be added, and effects too. -/
theorem schedule_quiet (Q : Quiet h ([], g)) (b : Block) (ho : announced o = 0) :
    Quiet h (o, { g with blocks := g.blocks ++ [b] }) :=
  Q.trans (Frame.same ⟨rfl, rfl, rfl, fun _ => List.mem_append_left _, fun _ => id⟩ rfl ho)

/-- A pairing that starts makes no announcement itself. -/
theorem startPair_quiet {device : Nat} : Quiet h (h.startPair S device) := by
  rw [startPair]
  split
  · exact finishPairOperation_frame (.of rfl) rfl
  · refine schedule_quiet ?_ _ rfl
    split
    · exact finishPairOperation_frame (.of rfl) rfl
    · exact Frame.same (.of rfl) rfl rfl

/-- A scan that begins makes no announcement itself. -/
theorem beginIfReady_quiet : Quiet h (h.beginIfReady S) := by
  rw [beginIfReady]
  split
  · dsimp only
    generalize hg : Host.invalidate _ = g
    have hdue : Quiet h ([], g) := hg ▸ Frame.invalidate (.of rfl) rfl
    exact hdue.trans (Frame.same ⟨rfl, rfl, rfl, fun _ => List.mem_append_left _, fun _ => id⟩ rfl rfl)
  · exact .refl h rfl

/-- After a scan an announcement of what it found is due. -/
theorem scanned_quiet (h : Host) : Quiet h ([], h.scanned S) :=
  Frame.invalidate (.of rfl) rfl

/-- The end of a scan makes no announcement itself. -/
theorem finish_quiet (h : Host) : Quiet h (h.finish S) := by
  rw [finish]
  split
  · dsimp only
    split
    · exact scanned_quiet h
    · exact (scanned_quiet h).trans (Frame.same (.of rfl) rfl rfl)
  · exact .refl h rfl

/-- After an answer of the user the number is gone, and an announcement is due. -/
theorem confirmation_quiet (h : Host) (n : Nat) (value : Control.Object) :
    Quiet h (h.confirmation n value) := by
  rw [confirmation]
  split
  · exact .refl h rfl
  split
  · split
    · exact Frame.invalidate (.of rfl) rfl
    · exact .refl h rfl
  · exact .refl h rfl
  · exact .refl h rfl

/-- A pair request makes no announcement itself. -/
theorem pair_quiet (h : Host) (n : Nat) (value : Control.Object) : Quiet h (h.pair S n value) := by
  rw [pair]
  split
  · exact .refl h rfl
  split
  · exact .refl h rfl
  split
  · exact .refl h rfl
  dsimp only
  generalize hg : Host.invalidate _ = g
  have hdue : Quiet h ([], g) := hg ▸ Frame.invalidate (.of rfl) rfl
  refine (hdue.trans ?_).append rfl
  split
  · exact finishPairOperation_quiet
  · exact startPair_quiet

/-- A request to connect or to disconnect makes no announcement itself. -/
theorem connection_quiet (h : Host) (n : Nat) (value : Control.Object) (connect : Bool) :
    Quiet h (h.connection S n value connect) := by
  rw [connection]
  split
  · exact .refl h rfl
  split
  · exact .refl h rfl
  split
  · exact .refl h rfl
  · dsimp only
    generalize hg : Host.invalidate _ = g
    have hdue : Quiet h ([], g) := hg ▸ Frame.invalidate (.of rfl) rfl
    exact hdue.trans (Frame.same (.of rfl) rfl rfl)

/-- Where the trust in the observations changes, a change is due. -/
theorem listed_quiet (h : Host) (n : Nat) : Quiet h (h.listed S n) := by
  have F : Frame h (h.observeConnections S) := by
    rw [observeConnections]
    split
    · exact ⟨rfl, rfl, rfl, fun _ => id, fun _ _ => rfl⟩
    · rename_i hn
      exact ⟨rfl, rfl, rfl, fun _ => id, fun hs => absurd (.inl hs) hn⟩
  rw [listed]
  split
  · exact F.invalidate rfl
  · rename_i hsame
    refine F.same ?_ rfl
    rw [view, ← not_not.mp hsame, observeConnections]
    split <;> rfl

/-- A scan request makes no announcement itself. -/
theorem scan_quiet (h : Host) (n : Nat) : Quiet h (h.scan S n) := by
  rw [scan]
  split
  · exact .refl h rfl
  · have hwait : Quiet h ([], { h with scanReply := some n, requested := true }) :=
      Frame.same (.of rfl) rfl rfl
    exact hwait.trans beginIfReady_quiet

/-- No action announces anything itself: what it changes is due to be announced. -/
theorem perform_quiet (h : Host) (n : Nat) (value : Control.Object) (action : String) :
    Quiet h (h.perform S n value action) := by
  rw [perform]
  split
  · exact confirmation_quiet h n value
  split
  · exact pair_quiet h n value
  split
  · exact connection_quiet h n value true
  split
  · exact connection_quiet h n value false
  split
  · exact .refl h rfl
  split
  · exact listed_quiet h n
  split
  · exact .refl h rfl
  split
  · exact scan_quiet h n
  · exact .refl h rfl

/-- No request does. -/
theorem handle_quiet (h : Host) (n : Nat) (value : Control.Object) : Quiet h (h.handle S n value) := by
  rw [handle]
  split
  · exact .refl h rfl
  split
  · exact .refl h rfl
  refine (prepareCentral_quiet (S := S) h false).trans ?_
  split
  · exact .refl _ rfl
  split
  · exact .refl _ rfl
  · exact perform_quiet _ n value _

/-- After a new state of the radio an announcement is due. -/
theorem didUpdateState_quiet (h : Host) : Quiet h (h.didUpdateState S) := by
  rw [didUpdateState]
  refine Quiet.trans (g := h.invalidate) (Frame.invalidate (.of rfl) rfl) ?_
  split
  · have hfinish := finish_quiet (S := S) h.invalidate
    exact ((hfinish.effects rfl).trans beginIfReady_quiet).append
      (by rw [announced_append, hfinish.silent]; rfl)
  · exact (beginIfReady_quiet).append rfl

/-- After the end of the current inquiry an announcement is due. -/
theorem inquiryComplete_quiet (h : Host) (inquiry : Nat) (error : Int) :
    Quiet h (h.inquiryComplete S inquiry error) := by
  rw [inquiryComplete]
  split
  · have hresult : Quiet h ([], { h with classicResult := error }) := Frame.same (.of rfl) rfl rfl
    refine hresult.trans ?_
    dsimp only
    split
    · exact finish_quiet _
    · exact .refl _ rfl
  · exact .refl h rfl

/-- After a number to be shown an announcement is due. -/
theorem confirmationRequest_quiet (h : Host) (attempt value : Nat) :
    Quiet h (h.confirmationRequest attempt value) := by
  rw [confirmationRequest]
  split
  · exact .refl h rfl
  split
  · exact .refl h rfl
  · exact Frame.invalidate (.of rfl) rfl

/-- After a passkey to be shown an announcement is due. -/
theorem passkeyNotification_quiet (h : Host) (attempt passkey : Nat) :
    Quiet h ([], h.passkeyNotification attempt passkey) := by
  rw [passkeyNotification]
  split
  · exact .refl h rfl
  · exact Frame.invalidate (.of rfl) rfl

/-- A request for a PIN ends the attempt, and an announcement is due. -/
theorem pinCodeRequest_quiet (h : Host) (attempt : Nat) : Quiet h (h.pinCodeRequest S attempt) := by
  rw [pinCodeRequest]
  split
  · exact .refl h rfl
  · rename_i a _
    have hend : Quiet h ([], { h with pairing := none : Host }.finishPairOperation S a.device
        kIOReturnUnsupported) := finishPairOperation_frame (.of rfl) rfl
    exact hend.effects rfl

/-- After the end of an attempt an announcement is due. -/
theorem pairingFinished_quiet (h : Host) (attempt : Nat) (error : Int) :
    Quiet h ([], h.pairingFinished S attempt error) := by
  rw [pairingFinished]
  split
  · exact .refl h rfl
  · exact finishPairOperation_quiet.trans (Frame.same (.of rfl) rfl rfl)

/-- After an attempt that ran out of time an announcement is due. -/
theorem pairTimeout_quiet (h : Host) (attempt : Attempt) : Quiet h (h.pairTimeout S attempt) := by
  rw [pairTimeout]
  split
  · have hend : Quiet h ([], { h with pairing := none : Host }.finishPairOperation S attempt.device
        kIOReturnTimeout) := finishPairOperation_frame (.of rfl) rfl
    exact hend.effects rfl
  · exact .refl h rfl

/-- The other blocks than that of `invalidate`. -/
theorem run_quiet (h : Host) {b : Block} (hb : ∀ work, b ≠ .change work) : Quiet h (h.run S b) := by
  cases b with
  | change work => exact absurd rfl (hb work)
  | scan generation =>
      rw [run]
      split
      · exact finish_quiet h
      · exact .refl h rfl
  | pair attempt => exact pairTimeout_quiet h attempt
  | connected job result => exact Frame.invalidate (.of rfl) rfl

/-- After a device that disconnected an announcement is due. -/
theorem deviceDisconnected_quiet (h : Host) (address : Option String) (notification : Nat) :
    Quiet h ([], h.deviceDisconnected address notification) := by
  rw [deviceDisconnected]
  split
  · exact .refl h rfl
  · exact Frame.invalidate (.of rfl) rfl

/-- After `stop` nothing is announced any more. -/
theorem stop_quiet (h : Host) : Quiet h (h.stop S) where
  news := Heralded.of_due (.inl rfl)
  silent := by
    rw [stop, announced_append, (finish_quiet h).silent]
    cases (h.finish S).2.pairing <;> rfl
  counter := (finish_quiet h).counter
  scheduled := fun _ =>
    { block := by
        rintro _ ⟨⟩
      stopped := fun _ => ⟨rfl, rfl⟩ }

@[simp] theorem observeConnections_counter (h : Host) :
    (h.observeConnections S).revisionGeneration = h.revisionGeneration := by
  rw [observeConnections]; split <;> rfl

@[simp] theorem observeConnections_stopped (h : Host) :
    (h.observeConnections S).stopped = h.stopped := by
  rw [observeConnections]; split <;> rfl

@[simp] theorem observeConnections_pendingChange (h : Host) :
    (h.observeConnections S).pendingChange = h.pendingChange := by
  rw [observeConnections]; split <;> rfl

end Host

/-- What a call does to what is announced, by the announcements it makes. -/
structure Tells (h : Host) (r : List Effect × Host) : Prop where
  news : Heralded Host.view Host.Due (announced r.1) h r.2
  counter : r.2.revisionGeneration % 2 ^ 64 = (h.revisionGeneration + announced r.1) % 2 ^ 64
  scheduled : Scheduled r.2

/-- A call that announces nothing tells every change of the view. -/
theorem Quiet.tells (Q : Quiet h r) (C : Scheduled h) : Tells h r where
  news := Q.silent ▸ Q.news
  counter := by rw [Q.silent, Q.counter, Nat.add_zero]
  scheduled := Q.scheduled C

/-- The block of `invalidate`, which has been taken off the queue. -/
theorem change_tells (C : Scheduled h) (blocks : List Block) :
    Tells h ({ h with blocks := blocks : Host }.change S) := by
  rw [Host.change]
  split
  · rename_i hs
    obtain ⟨hp, hc⟩ := C.stopped hs
    exact
      { news := Heralded.of_due (.inl hs)
        counter := rfl
        scheduled := ⟨fun work (hw : h.pendingChange = some work) => by simp [hp] at hw, fun _ => ⟨hp, hc⟩⟩ }
  · rename_i hs
    refine ⟨.inl Nat.one_pos, ?_, ⟨fun work hw => ?_, fun hs' => ?_⟩⟩
    · simp only [Host.observeConnections_counter, Nat.mod_mod]
      rfl
    · simp at hw
    · exact absurd (by simpa using hs') hs

/-- A block that is not the one of `invalidate` leaves that one on the queue. -/
theorem erase_frame {index : Nat} {b : Block} (hb : h.blocks[index]? = some b)
    (hne : ∀ work, b ≠ .change work) :
    Frame h { h with blocks := h.blocks.eraseIdx index } where
  stopped := rfl
  pendingChange := rfl
  counter := rfl
  blocks := fun work hw => by
    obtain ⟨i, hi⟩ := List.mem_iff_getElem?.mp hw
    refine List.mem_eraseIdx_iff_getElem?.mpr ⟨i, fun hii => hne work ?_, hi⟩
    rw [hii, hb] at hi
    exact Option.some.inj hi
  complete := fun _ => id

/-- **What an event announces.** -/
theorem step_tells {e : Event} {o : List Effect} {h' : Host} (C : Scheduled h)
    (hstep : h.Step e o h') : Tells h (o, h') := by
  have hquiet : ∀ {r : List Effect × Host}, Quiet h r → r = (o, h') → Tells h (o, h') :=
    fun Q hr => hr ▸ Q.tells C
  rw [Host.Step, Host.step] at hstep
  split at hstep
  · split at hstep
    · cases hstep
    · have hcount : Quiet h ([], { h with requests := h.requests + 1 }) := Frame.same (.of rfl) rfl rfl
      exact hquiet (hcount.trans (Host.handle_quiet _ _ _)) (Option.some.inj hstep)
  · exact hquiet (Host.prepareCentral_quiet h _) (Option.some.inj hstep)
  · split at hstep
    · exact hquiet (Host.didUpdateState_quiet h) (Option.some.inj hstep)
    · cases hstep
  · refine hquiet ?_ (Option.some.inj hstep)
    split
    · exact Frame.same (.of rfl) rfl rfl
    · exact .refl h rfl
  · refine hquiet ?_ (Option.some.inj hstep)
    split
    · exact Frame.same (.of rfl) rfl rfl
    · exact .refl h rfl
  · exact hquiet (Host.inquiryComplete_quiet h _ _) (Option.some.inj hstep)
  · exact hquiet (Host.confirmationRequest_quiet h _ _) (Option.some.inj hstep)
  · exact hquiet (Host.passkeyNotification_quiet h _ _) (Option.some.inj hstep)
  · exact hquiet (Host.pinCodeRequest_quiet h _) (Option.some.inj hstep)
  · exact hquiet (Host.pairingFinished_quiet h _ _) (Option.some.inj hstep)
  · exact hquiet (Frame.invalidate (.of rfl) rfl) (Option.some.inj hstep)
  · exact hquiet (Frame.invalidate (.of rfl) rfl) (Option.some.inj hstep)
  · exact hquiet (Host.deviceDisconnected_quiet h _ _) (Option.some.inj hstep)
  · split at hstep
    · cases hstep
    · refine hquiet (r := ([], _)) ?_ (Option.some.inj hstep)
      exact Frame.same ⟨rfl, rfl, rfl, fun _ => List.mem_append_left _, fun _ => id⟩ rfl rfl
  · rename_i index _
    obtain ⟨b, hb, hrun⟩ := Option.map_eq_some_iff.mp hstep
    by_cases hchange : ∃ work, b = .change work
    · obtain ⟨work, rfl⟩ := hchange
      exact hrun ▸ change_tells C _
    · have hne : ∀ work, b ≠ .change work := fun work hw => hchange ⟨work, hw⟩
      have herase : Quiet h ([], { h with blocks := h.blocks.eraseIdx index }) :=
        (erase_frame hb hne).same rfl rfl
      exact hquiet (herase.trans (Host.run_quiet _ hne)) hrun
  · exact hquiet (Host.stop_quiet h) (Option.some.inj hstep)

end Quiet

/-! ### What is read -/

section Reads
variable {h h' g : Host} {S : Surroundings} {t u : List (Event × List Effect)}

/-- At the start there is no change to announce. -/
theorem scheduled_initial : Scheduled .initial where
  block := by
    rintro _ ⟨⟩
  stopped := by
    rintro ⟨⟩

/-- In every state of a run, what announces a pending change is scheduled. -/
theorem run_scheduled (r : Steps Host.Step h t h') (C : Scheduled h) : Scheduled h' :=
  r.invariant (fun C hstep => (step_tells C hstep).scheduled) C

/-- The block of an announcement makes it, and then the revision is another one. -/
theorem change_revision {work i r : Nat} (hi : h.blocks[i]? = some (.change work))
    (hs : h.stopped = false) (hr : h.revision = some r) (S : Surroundings) :
    ∃ g, h.Step ⟨S, .block i⟩ [.changed] g ∧ g.revision ≠ some r := by
  obtain ⟨-, hr⟩ := Option.ite_none_right_eq_some.mp hr
  have hrun : h.Step ⟨S, .block i⟩ [.changed]
      (Host.change S { h with blocks := h.blocks.eraseIdx i }).2 := by
    show (h.blocks[i]?).map (fun b => Host.run S { h with blocks := h.blocks.eraseIdx i } b) = _
    rw [hi, Option.map_some, Host.run, Host.change, if_neg (by simpa using hs)]
  refine ⟨_, hrun, fun hg => ?_⟩
  · rw [Host.change, if_neg (by simpa using hs)] at hg
    obtain ⟨-, hg⟩ := Option.ite_none_right_eq_some.mp hg
    have hnext := Option.some.inj (hg.trans hr.symm)
    simp only [Host.observeConnections_counter] at hnext
    omega

namespace Host

/-- What the answer to `bluetooth-devices` says of the state. -/
def displayed (h : Host) : Option Operation × Bool × List Nat × Bool :=
  (h.operation, h.scanning, h.devices, h.central)

@[simp] theorem invalidate_displayed (h : Host) : h.invalidate.displayed = h.displayed := by
  rw [invalidate]; split <;> rfl

@[simp] theorem observeConnections_displayed (h : Host) : (h.observeConnections S).displayed = h.displayed := by
  rw [observeConnections]; split <;> rfl

/-- The answer to `bluetooth-devices`, from what is displayed. -/
def listing (S : Surroundings) (x : Option Operation × Bool × List Nat × Bool) : Control.Object :=
  [("ok", .bool true),
    ("devices", .arr ((((withDevices S S.pairedDevices x.2.2.1).take 64).filterMap (record S)).map .obj)),
    ("powered", .bool (x.2.2.2 && S.poweredOn)), ("scanning", .bool x.2.1),
    ("operation", .obj ((x.1.map Operation.object).getD []))]

/-- The listing is made from what is displayed. -/
theorem listed_reply (h : Host) (n : Nat) : (h.listed S n).1 = [.reply n (listing S h.displayed)] := by
  rw [listed]
  split
  · rw [← observeConnections_displayed h, ← invalidate_displayed]
    rfl
  · rw [← observeConnections_displayed h]
    rfl

/-- The request for the devices. -/
def forDevices : Control.Object := [("action", .str "bluetooth-devices")]

/-- Who is answered has prepared the central, so only the operation, the scan and the devices of the
state show. -/
theorem handle_forDevices (h : Host) (n : Nat) : (h.handle S n forDevices).1 =
    if !S.active then [.reply n (failure "Active session required")]
    else if S.authorization ≠ .allowedAlways then
      [.reply n (failure "Active authorized session required")]
    else [.reply n (listing S (h.operation, h.scanning, h.devices, true))] := by
  have hhandle : h.handle S n forDevices =
      if !S.active then ([.reply n (failure "Active session required")], h)
      else if S.authorization ≠ .allowedAlways then
        ([.reply n (failure "Active authorized session required")], h.prepareCentral S false)
      else (h.prepareCentral S false).listed S n := rfl
  rw [hhandle]
  cases hactive : S.active with
  | false => rfl
  | true =>
      by_cases hallowed : S.authorization = .allowedAlways
      · have hprepared : (h.prepareCentral S false).displayed =
            (h.operation, h.scanning, h.devices, true) := by
          rw [prepareCentral, displayed]
          cases hcentral : h.central <;> simp [hactive, hallowed, hcentral]
        simp [hallowed, listed_reply, hprepared]
      · simp [hallowed]

end Host

/-- **What the revision tells.**  A service that runs to a state in which its revision is known and
goes on to one with the same revision would answer `bluetooth-devices` as before, on whatever finds it;
or the block of an announcement waits on the main queue, and with it the revision changes.  The counter
does not come round between the two. -/
theorem revision_tells {r : Nat} (before : Steps Host.Step .initial t h) (since : Steps Host.Step h u h')
    (hread : h.revision = some r) (hagain : h'.revision = some r)
    (hfew : announcements announced u < 2 ^ 64) :
    (∀ S n, (h'.handle S n Host.forDevices).1 = (h.handle S n Host.forDevices).1) ∨
      ∃ work, .change work ∈ h'.blocks ∧ ∀ S i, h'.blocks[i]? = some (.change work) →
        ∃ g, h'.Step ⟨S, .block i⟩ [.changed] g ∧ g.revision ≠ some r := by
  have C := run_scheduled before scheduled_initial
  have C' := run_scheduled since C
  obtain ⟨-, hr⟩ := Option.ite_none_right_eq_some.mp hread
  obtain ⟨hcomplete, hr'⟩ := Option.ite_none_right_eq_some.mp hagain
  have hsame := Option.some.inj (hr'.trans hr.symm)
  have within := since.within (fun C hstep => (step_tells C hstep).scheduled) C
  have hcounter : h'.revisionGeneration % 2 ^ 64 = h.revisionGeneration % 2 ^ 64 := by rw [hsame]
  have hcount : ∀ {g e o g'}, Host.Step g e o g' ∧ Scheduled g →
      g'.revisionGeneration % 2 ^ 64 = (g.revisionGeneration + announced o) % 2 ^ 64 :=
    fun hs => (step_tells hs.2 hs.1).counter
  have hseen : h'.view = h.view ∨ h'.Due :=
    within.seen (fun hs => (step_tells hs.2 hs.1).news) hcount hfew hcounter
  have hgoing : h'.stopped = false := by
    by_contra hs
    rw [(C'.stopped (by simpa using hs)).2] at hcomplete
    cases hcomplete
  obtain hview | hstopped | hpending := hseen
  · refine .inl fun S n => ?_
    obtain ⟨ho, hsc, hd, -⟩ : h'.operation = h.operation ∧ h'.scanning = h.scanning ∧
        h'.devices = h.devices ∧ _ := by simpa [Host.view] using hview
    rw [Host.handle_forDevices, Host.handle_forDevices, ho, hsc, hd]
  · exact absurd hstopped (by rw [hgoing]; exact Bool.false_ne_true)
  · obtain ⟨work, hwork⟩ := Option.ne_none_iff_exists'.mp hpending
    exact .inr ⟨work, C'.block work hwork, fun S i hi => change_revision hi hgoing hagain S⟩

end Reads

/-- The service when the devices have been read. -/
def sampleRead : Host := (sampleAfter [("action", .str "bluetooth-devices")]).2

/-- The name of a device changes behind them. -/
theorem revision_tells_sample : sampleRead.revision = some 0 ∧
    ((∀ S n, (sampleRead.invalidate.handle S n Host.forDevices).1 =
        (sampleRead.handle S n Host.forDevices).1) ∨
      ∃ work, .change work ∈ sampleRead.invalidate.blocks ∧ ∀ S i,
        sampleRead.invalidate.blocks[i]? = some (.change work) →
          ∃ g, sampleRead.invalidate.Step ⟨S, .block i⟩ [.changed] g ∧ g.revision ≠ some 0) :=
  ⟨by rfl, revision_tells (sampleAfter_steps _)
    (.one (show sampleRead.Step ⟨sampleWorld, .metadataChanged⟩ [] sampleRead.invalidate from rfl))
    (by rfl) (by rfl) (by decide)⟩

end Ashacky.Devices.BluetoothService
