import Ashacky.Devices.Mirror

/-!
# Devices — Freshness

When the radio is fed a state that is not older than the host's revision.  `update` stamps the
state it takes with the key that is current when the read ends, not with the one it was read under.

* `Change`: everything a step can do to the key, the cached state and the read.
* `Calm`: no other key comes while a request of a read is out, or its result waits; and none comes
  that the cached state is stamped with.
* `Fresh`: what a read gave whose last request was started under the current key.
* `Provenance`: in a run of calm steps, what is out, what waits and what is cached is fresh.
-/

namespace Ashacky.Devices.Bluetooth
open Ashacky.Support
open Ashacky.Control (Json Object)

/-! ### What a call keeps -/

/-- At most the tree and the registrations differ. -/
def TreeOnly (b b' : Bridge) : Prop :=
  ∃ objects registrations exported identifier,
    b' = { b with
      objects := objects
      registrations := registrations
      exported := exported
      identifier := identifier }

theorem TreeOnly.refl (b : Bridge) : TreeOnly b b := ⟨_, _, _, _, rfl⟩

/-- Changes of the tree alone compose. -/
theorem TreeOnly.trans {b b₁ b' : Bridge} (h : TreeOnly b b₁) (h' : TreeOnly b₁ b') :
    TreeOnly b b' := by
  obtain ⟨_, _, _, _, rfl⟩ := h
  obtain ⟨_, _, _, _, rfl⟩ := h'
  exact ⟨_, _, _, _, rfl⟩

/-- The call did not feed the radio, and touched only the tree. -/
structure Quiet (b : Bridge) (c : Called) : Prop where
  tree : TreeOnly b c.bridge
  feeds : ∀ n, Effect.feed n ∉ c.effects

/-- Calls that change the tree alone can follow each other. -/
theorem Quiet.andThen {b : Bridge} {c : Called} {f : Bridge → Called} (h : Quiet b c)
    (hf : ∀ b, Quiet b (f b)) : Quiet b (c.andThen f) := by
  rw [Called.andThen]
  split
  · exact h
  · refine ⟨h.tree.trans (hf _).tree, fun n hn => ?_⟩
    rcases List.mem_append.mp hn with hn | hn
    · exact h.feeds n hn
    · exact (hf _).feeds n hn

/-- A loop of such calls is one too, also when one of them raises. -/
theorem each_quiet {α : Type} {f : α → Bridge → Called} (hf : ∀ x b, Quiet b (f x b)) :
    ∀ (xs : List α) (b : Bridge), Quiet b (each f xs b)
  | [], b => ⟨.refl b, fun _ => List.not_mem_nil⟩
  | x :: xs, b => (hf x b).andThen (each_quiet hf xs)

/-- Taking an interface off the bus changes the tree alone. -/
theorem unregister_quiet (path interface : String) (b : Bridge) :
    Quiet b (b.unregister path interface) := by
  rw [Bridge.unregister]
  split
  · exact ⟨.refl b, fun _ => List.not_mem_nil⟩
  · exact ⟨⟨_, _, _, _, rfl⟩, fun _ => List.not_mem_nil⟩

/-- Removing an object changes the tree alone. -/
theorem remove_quiet (path : String) (b : Bridge) : Quiet b (b.remove path) := by
  rw [Bridge.remove]
  split
  · exact ⟨.refl b, fun _ => List.not_mem_nil⟩
  · refine Quiet.andThen ⟨⟨_, _, _, _, rfl⟩, ?_⟩ fun b => each_quiet (unregister_quiet path) _ b
    simp

/-- Announcing new properties changes the tree alone. -/
theorem change_quiet (path interface : String) (props : Properties) (b : Bridge) :
    Quiet b (b.change path interface props) := by
  rw [Bridge.change]
  split
  · exact ⟨.refl b, fun _ => List.not_mem_nil⟩
  · refine ⟨⟨_, _, _, _, rfl⟩, fun n hn => ?_⟩
    simp only [] at hn
    split at hn
    · cases hn
    · simp at hn

/-- Registering the interfaces of an object changes the tree alone. -/
theorem register_treeOnly (path : String) (interfaces : Interfaces) (b : Bridge) :
    TreeOnly b (interfaces.foldl (fun b e => b.register path e.1) b) := by
  induction interfaces generalizing b with
  | nil => exact .refl b
  | cons e interfaces ih => exact .trans ⟨_, _, _, _, rfl⟩ (ih _)

/-- Placing an object changes the tree alone. -/
theorem place_quiet (entry : String × Interfaces) (b : Bridge) : Quiet b (b.place entry) := by
  rw [Bridge.place]
  split
  · refine ⟨.trans ⟨_, _, _, _, rfl⟩ (register_treeOnly _ _ _), ?_⟩
    simp
  · exact each_quiet (fun e : String × Properties => change_quiet entry.1 e.1 e.2) _ b

/-- Publishing a whole set of objects changes the tree alone. -/
theorem publish_quiet (current : Objects) (order : List String) (b : Bridge) :
    Quiet b (b.publish current order) :=
  (each_quiet remove_quiet _ b).andThen fun b => each_quiet place_quiet _ b

/-! ### What is taken from a reply -/

/-- The state of a reply: what a snapshot says if the bridge can publish it, else none. -/
def stateOf : Except String Object → Nat
  | .error _ => 0
  | .ok state =>
      match Bridge.radioOf state, Bridge.new.current state with
      | .ok n, .ok _ => n
      | _, _ => 0

/-- Whether the device records can be read does not depend on the objects before them. -/
theorem withDevices_ok {records : List Json} {c out : Objects} (c' : Objects)
    (h : Bridge.withDevices records c = .ok out) :
    ∃ out', Bridge.withDevices records c' = .ok out' := by
  induction records generalizing c c' with
  | nil => exact ⟨c', rfl⟩
  | cons record records ih =>
      rw [Bridge.withDevices] at h ⊢
      obtain ⟨⟨path, props⟩, hprops, h⟩ := except_bind_eq_ok.mp h
      obtain ⟨out', h'⟩ := ih (put c' path [(deviceInterface, props)]) h
      exact ⟨out', except_bind_eq_ok.mpr ⟨_, hprops, h'⟩⟩

/-- Properties can be built when each value has a D-Bus form. -/
theorem variants_ok_iff {values : List (String × Json)} :
    (∃ props, variants values = .ok props) ↔ ∀ e ∈ values, ∃ v, variant e.2 = .ok v := by
  induction values with
  | nil => exact ⟨fun _ => nofun, fun _ => ⟨[], rfl⟩⟩
  | cons e values ih =>
      obtain ⟨key, value⟩ := e
      rw [List.forall_mem_cons, ← ih, variants]
      constructor
      · rintro ⟨props, h⟩
        obtain ⟨v, hv, h⟩ := except_bind_eq_ok.mp h
        obtain ⟨rest, hrest, -⟩ := except_bind_eq_ok.mp h
        exact ⟨⟨v, hv⟩, rest, hrest⟩
      · rintro ⟨⟨v, hv⟩, rest, hrest⟩
        exact ⟨_, except_bind_eq_ok.mpr ⟨v, hv, except_bind_eq_ok.mpr ⟨rest, hrest, rfl⟩⟩⟩

/-- The adapter's properties can be built for either value of the discovery flag. -/
theorem adapterProps_ok {powered : Json} {d : Bool} {props : Properties} (d' : Bool)
    (h : Bridge.adapterProps powered d = .ok props) :
    ∃ props', Bridge.adapterProps powered d' = .ok props' := by
  have hd : ∀ d, ∃ v, variant (.bool d) = .ok v := fun d => ⟨_, rfl⟩
  have hvalues := variants_ok_iff.mp ⟨props, h⟩
  refine variants_ok_iff.mpr ?_
  simp only [List.forall_mem_cons] at hvalues ⊢
  simpa only [hd, true_and] using hvalues

/-- Whether a snapshot can be published does not depend on the bridge. -/
theorem current_ok {b b' : Bridge} {state : Object} {c : Objects} (h : b.current state = .ok c) :
    ∃ c', b'.current state = .ok c' := by
  rw [Bridge.current] at h ⊢
  obtain ⟨powered, hpowered, h⟩ := except_bind_eq_ok.mp h
  obtain ⟨adapter, hadapter, h⟩ := except_bind_eq_ok.mp h
  obtain ⟨devices, hdevices, h⟩ := except_bind_eq_ok.mp h
  obtain ⟨records, hrecords, h⟩ := except_bind_eq_ok.mp h
  obtain ⟨adapter', hadapter'⟩ := adapterProps_ok (b'.discovery ≠ []) hadapter
  obtain ⟨out', h'⟩ := withDevices_ok
    [(agentsPath, [(agentsInterface, [])]), (adapterPath, [(adapterInterface, adapter')])] h
  refine ⟨out', except_bind_eq_ok.mpr ⟨_, hpowered, except_bind_eq_ok.mpr ⟨_, hadapter', ?_⟩⟩⟩
  exact except_bind_eq_ok.mpr ⟨_, hdevices, except_bind_eq_ok.mpr ⟨_, hrecords, h'⟩⟩

/-- What the parts of the bridge that matter here have in common: neither the key nor the read
changes, and the radio is not fed. -/
structure Steady (b : Bridge) (effects : List Effect) (b' : Bridge) : Prop where
  key : b'.events.key = b.events.key
  read : b'.read = b.read
  closed : b'.closed = b.closed
  feeds : ∀ n, Effect.feed n ∉ effects

/-- Steady changes compose. -/
theorem Steady.append {b b₁ b' : Bridge} {effects effects' : List Effect} (h : Steady b effects b₁)
    (h' : Steady b₁ effects' b') : Steady b (effects ++ effects') b' := by
  refine ⟨h'.key.trans h.key, h'.read.trans h.read, h'.closed.trans h.closed, fun n hn => ?_⟩
  rcases List.mem_append.mp hn with hn | hn
  · exact h.feeds n hn
  · exact h'.feeds n hn

/-- An update leaves the key and the read, and does not feed the radio. -/
theorem update_steady (b : Bridge) (state : Object) (order : List String) :
    Steady b (b.update state order).effects (b.update state order).bridge := by
  rw [Bridge.update]
  split
  · exact ⟨rfl, rfl, rfl, fun _ => List.not_mem_nil⟩
  · rename_i radio _
    simp only []
    split
    · exact ⟨rfl, rfl, rfl, by simp⟩
    · rename_i current _
      have hq := Quiet.andThen (c := ⟨{ b with radioState := radio, radioKey := b.events.key },
        [.radio radio], none⟩) ⟨.refl _, by simp⟩ (publish_quiet current order)
      obtain ⟨⟨_, _, _, _, heq⟩, hfeeds⟩ := hq
      exact ⟨by rw [heq], by rw [heq], by rw [heq], hfeeds⟩

/-- The radio after an update that knows its state, also if it then raised. -/
theorem update_radio {b : Bridge} {state : Object} {n : Nat} (h : Bridge.radioOf state = .ok n)
    (order : List String) :
    (b.update state order).bridge.radioState = n ∧
      (b.update state order).bridge.radioKey = b.events.key := by
  rw [Bridge.update, h]
  simp only []
  split
  · exact ⟨rfl, rfl⟩
  · rename_i current _
    have hq := Quiet.andThen (c := ⟨{ b with radioState := n, radioKey := b.events.key },
      [.radio n], none⟩) ⟨.refl _, by simp⟩ (publish_quiet current order)
    obtain ⟨⟨_, _, _, _, heq⟩, -⟩ := hq
    rw [heq]
    exact ⟨rfl, rfl⟩

/-- An update raises when its state cannot be known or published, and only then. -/
theorem update_raised {b : Bridge} (h : Sound b) (state : Object) (order : List String) :
    (b.update state order).raised = none ↔
      ∃ n c, Bridge.radioOf state = .ok n ∧ Bridge.new.current state = .ok c := by
  have hsound (n : Nat) : Sound { b with radioState := n, radioKey := b.events.key } :=
    h.frame rfl rfl rfl rfl
  rw [Bridge.update]
  cases Bridge.radioOf state with
  | error e =>
      constructor
      · rintro ⟨⟩
      · rintro ⟨_, _, ⟨⟩, -⟩
  | ok n =>
      simp only []
      cases hc : Bridge.current { b with radioState := n, radioKey := b.events.key } state with
      | error e =>
          constructor
          · rintro ⟨⟩
          · rintro ⟨_, c, -, hnew⟩
            obtain ⟨c', hc'⟩ := current_ok hnew
            rw [hc] at hc'
            cases hc'
      | ok current =>
          obtain ⟨c', hc'⟩ := current_ok hc
          refine ⟨fun _ => ⟨n, c', rfl, hc'⟩, fun _ => ?_⟩
          exact (publish_mirrors (hsound n) (current_shaped hc) order).raised

/-- A host that cannot be read has its radio off. -/
theorem radioOf_unavailable : Bridge.radioOf Bridge.unavailable = .ok 0 := rfl

theorem fail_steady (b : Bridge) (order : List String) :
    Steady b (b.fail order).1 (b.fail order).2 := by
  obtain ⟨hkey, hread, hclosed, hfeeds⟩ := update_steady b Bridge.unavailable order
  refine ⟨?_, hread, hclosed, hfeeds⟩
  rw [← hkey, Bridge.fail, BluetoothEvents.retry]
  split <;> rfl

/-- After a failure the radio is off, for the key current at that time. -/
theorem fail_radio (b : Bridge) (order : List String) :
    (b.fail order).2.radioState = 0 ∧ (b.fail order).2.radioKey = b.events.key :=
  update_radio radioOf_unavailable order

theorem take_steady (b : Bridge) (reply : Except String Object) (order : List String) :
    Steady b (b.take reply order).1 (b.take reply order).2 := by
  cases reply with
  | error e => exact fail_steady b order
  | ok state =>
      have hu := update_steady b state order
      simp only [Bridge.take]
      split
      · exact hu
      · exact hu.append (fail_steady _ order)

/-- **What is taken from a reply is its state, stamped with the key that is current then.** -/
theorem take_radio {b : Bridge} (h : Sound b) (reply : Except String Object) (order : List String) :
    (b.take reply order).2.radioState = stateOf reply ∧
      (b.take reply order).2.radioKey = b.events.key := by
  cases reply with
  | error e => exact fail_radio b order
  | ok state =>
      have hraised := update_raised h state order
      simp only [Bridge.take]
      cases hr : (b.update state order).raised with
      | none =>
          obtain ⟨n, c, hn, hc⟩ := hraised.mp hr
          rw [stateOf, hn, hc]
          exact update_radio hn order
      | some e =>
          have hkey := (update_steady b state order).key
          obtain ⟨hstate, hradio⟩ := fail_radio (b.update state order).bridge order
          refine ⟨hstate.trans ?_, hradio.trans hkey⟩
          rw [stateOf]
          split
          · rename_i n c hn hc
            rw [hraised.mpr ⟨n, c, hn, hc⟩] at hr
            cases hr
          · rfl

/-! ### What a step does -/

/-- Neither does the cached state. -/
structure Still (b : Bridge) (effects : List Effect) (b' : Bridge) : Prop
    extends Steady b effects b' where
  radioKey : b'.radioKey = b.radioKey
  radioState : b'.radioState = b.radioState

/-- A change of discovery touches neither the key nor the cached state. -/
theorem discoveryChanged_still (b : Bridge) :
    Still b b.discoveryChanged.1 b.discoveryChanged.2 := by
  have hframe : Still b []
      (if b.discovery = [] then { b with events := b.events.removeSource .discovery } else b) := by
    split <;> exact ⟨⟨rfl, rfl, rfl, fun _ => List.not_mem_nil⟩, rfl, rfl⟩
  rw [Bridge.discoveryChanged]
  generalize (if b.discovery = [] then
    { b with events := b.events.removeSource .discovery } else b) = b₁ at hframe ⊢
  split
  · exact ⟨⟨hframe.key, hframe.read, hframe.closed, by simp⟩, hframe.radioKey, hframe.radioState⟩
  · exact hframe

theorem startDiscovery_still (b : Bridge) (sender : String) :
    Still b (b.startDiscovery sender).1 (b.startDiscovery sender).2 := by
  have hd := discoveryChanged_still { b with
    discovery := if sender ∈ b.discovery then b.discovery else sender :: b.discovery }
  exact ⟨⟨hd.key, hd.read, hd.closed, hd.feeds⟩, hd.radioKey, hd.radioState⟩

theorem stopDiscovery_still (b : Bridge) (sender : String) :
    Still b (b.stopDiscovery sender).1 (b.stopDiscovery sender).2 := by
  have hd := discoveryChanged_still { b with discovery := b.discovery.filter (· ≠ sender) }
  exact ⟨⟨hd.key, hd.read, hd.closed, hd.feeds⟩, hd.radioKey, hd.radioState⟩

/-- Still changes compose. -/
theorem Still.append {b b₁ b' : Bridge} {effects effects' : List Effect} (h : Still b effects b₁)
    (h' : Still b₁ effects' b') : Still b (effects ++ effects') b' :=
  ⟨h.toSteady.append h'.toSteady, h'.radioKey.trans h.radioKey, h'.radioState.trans h.radioState⟩

theorem scheduleDiscovery_still (b : Bridge) : Still b [] b.scheduleDiscovery := by
  rw [Bridge.scheduleDiscovery]
  split <;> exact ⟨⟨rfl, rfl, rfl, fun _ => List.not_mem_nil⟩, rfl, rfl⟩

theorem settle_still (b : Bridge) : Still b [] b.settle := by
  have hframe : Still b []
      (if b.refreshAgain then { b with refreshAgain := false, events := b.events.notify } else b) := by
    split <;> exact ⟨⟨rfl, rfl, rfl, fun _ => List.not_mem_nil⟩, rfl, rfl⟩
  exact hframe.append (scheduleDiscovery_still _)

/-- The key that an event reads from the status file. -/
def Event.reads : Event → Option (Option HostKey)
  | .watchStatus _ key | .fire .watch _ key _ | .fire .expiry _ key _ => some key
  | .statusChanged directory file key => if directory ∨ file then some key else none
  | _ => none

/-- The worker starts or ends a request of a read. -/
def Event.isWorkers : Event → Bool
  | .request | .reply _ => true
  | _ => false

/-- Reading the host's channel sets the key. -/
theorem readHost_key (e : BluetoothEvents) (key : Option HostKey) : (e.readHost key).key = key := by
  have hset (e : BluetoothEvents) :
      (if key ≠ e.key then { e with key := key }.notify else e).key = key := by
    by_cases hkey : key = e.key
    · rw [if_neg (not_not.mpr hkey), hkey]
    · rw [if_pos hkey]
      rfl
  rw [BluetoothEvents.readHost]
  by_cases hsome : key.isSome
  · simp only [hsome, if_true]
    exact hset _
  · simp only [hsome]
    exact hset _

/-- Everything a step can do to the key, the cached state and the read. -/
inductive Change (b : Bridge) : Event → List Effect → Bridge → Prop where
  | still {e effects b'} (h : Still b effects b') (he : e.isWorkers = false) : Change b e effects b'
  /-- A key is read. -/
  | keyed {e effects b'} (key : Option HostKey) (hr : e.reads = some key)
      (he : e.isWorkers = false) (hkey : b'.events.key = key) (hread : b'.read = b.read)
      (hclosed : b'.closed = b.closed) (hradioKey : b'.radioKey = b.radioKey)
      (hstate : b'.radioState = b.radioState)
      (heffects : effects = if key.isSome then b'.heartbeat else []) : Change b e effects b'
  /-- `refresh` while the host is not active. -/
  | idle {e effects b'} (h : Steady b effects b') (he : e.isWorkers = false)
      (hactive : b.events.active = false)
      (hradioKey : b'.radioKey = b.events.key) : Change b e effects b'
  /-- A read is submitted. -/
  | submitted {e effects b'} (scan : Bool) (he : e.isWorkers = false)
      (hkey : b'.events.key = b.events.key) (hread : b'.read = some (.waiting scan))
      (hclosed : b'.closed = b.closed) (hradioKey : b'.radioKey = b.radioKey)
      (hstate : b'.radioState = b.radioState) (hfeeds : ∀ n, Effect.feed n ∉ effects) :
      Change b e effects b'
  | requested (r : Read) (hr : r = .scanning ∨ r = .reading) :
      Change b .request [] { b with read := some r }
  /-- A scan ended well; the devices are still to be asked for. -/
  | scanned (result : Except String Object) (hread : b.read = some .scanning) :
      Change b (.reply result) [] { b with read := some (.waiting false) }
  | replied (result : Except String Object)
      (hread : b.read = some .reading ∨ b.read = some .scanning ∧ ∃ text, result = .error text) :
      Change b (.reply result) [] { b with read := some (.done result) }
  /-- The main loop takes a result. -/
  | taken {e effects b'} (reply : Except String Object) (hread : b.read = some (.done reply))
      (he : e.isWorkers = false) (hkey : b'.events.key = b.events.key)
      (hread' : b'.read = none) (hclosed : b'.closed = b.closed)
      (hradioKey : b'.radioKey = b.events.key) (hstate : b'.radioState = stateOf reply)
      (hfeeds : ∀ n, Effect.feed n ∉ effects) : Change b e effects b'
  /-- The main loop drops a result, or the bridge closes. -/
  | dropped {e effects b'} (he : e.isWorkers = false)
      (hkey : b'.events.key = b.events.key) (hread : b'.read = none ∨ b'.read = b.read)
      (hclosed : b'.closed = true) (hradioKey : b'.radioKey = b.radioKey)
      (hstate : b'.radioState = b.radioState) (hfeeds : effects = []) : Change b e effects b'

section Step
variable {b b' : Bridge} {e : Event} {effects : List Effect}

/-- An event that only reads the channel is an allowed change. -/
theorem Change.of_readHost {b₀ : Bridge} (h : Still b [] b₀) {key : Option HostKey}
    (hr : e.reads = some key) (he : e.isWorkers = false) :
    Change b e (b₀.readHost key).1 (b₀.readHost key).2 :=
  .keyed key hr he (readHost_key b₀.events key) h.read h.closed h.radioKey h.radioState rfl

/-- An event that asks for a refresh in the end is an allowed change. -/
theorem refresh_change {b₀ : Bridge} (h : Still b effects b₀) (he : e.isWorkers = false)
    (scan : Bool) (order : List String) :
    Change b e (effects ++ (b₀.refresh scan order).1) (b₀.refresh scan order).2 := by
  rw [Bridge.refresh]
  split
  · exact .still (h.append ⟨⟨rfl, rfl, rfl, fun _ => List.not_mem_nil⟩, rfl, rfl⟩) he
  split
  · exact .still (h.append ⟨⟨rfl, rfl, rfl, fun _ => List.not_mem_nil⟩, rfl, rfl⟩) he
  split
  · rename_i hactive
    refine .idle (h.toSteady.append (update_steady b₀ Bridge.unavailable order)) he ?_ ?_
    · have hsame : b₀.events.active = b.events.active := by
        rw [BluetoothEvents.active, BluetoothEvents.active, h.key]
      simpa [hsame] using hactive
    · exact (update_radio radioOf_unavailable order).2.trans h.key
  · exact .submitted _ he h.key rfl h.closed h.radioKey h.radioState (by simpa using h.feeds)

/-- A timer is an allowed change. -/
theorem fire_change {name : Timer} {watched : Bool} {key : Option HostKey} {order : List String} :
    Change b (.fire name watched key order) (b.fire name watched key order).1
      (b.fire name watched key order).2 := by
  have hframe : Still b [] { b with events := b.events.removeSource name } :=
    ⟨⟨rfl, rfl, rfl, fun _ => List.not_mem_nil⟩, rfl, rfl⟩
  have hclosed : (b.events.removeSource name).closed = b.events.closed := rfl
  simp only [Bridge.fire, hclosed]
  split
  · exact .still hframe rfl
  · cases name with
    | refresh => exact refresh_change hframe rfl false order
    | retry => exact .still ⟨⟨rfl, rfl, rfl, fun _ => List.not_mem_nil⟩, rfl, rfl⟩ rfl
    | reconcile =>
        refine .still ⟨⟨?_, rfl, rfl, fun _ => List.not_mem_nil⟩, rfl, rfl⟩ rfl
        simp only [BluetoothEvents.reconcile]
        split <;> rfl
    | expiry => exact .of_readHost hframe rfl rfl
    | watch =>
        have hwatch : Still b [] (if watched then { b with events := b.events.removeSource .watch }
            else { b with events := (b.events.removeSource .watch).later .watch }) := by
          split <;> exact ⟨⟨rfl, rfl, rfl, fun _ => List.not_mem_nil⟩, rfl, rfl⟩
        exact .of_readHost hwatch rfl rfl
    | discovery => exact refresh_change hframe rfl true order

/-- The end of a read feeds what its reply says, which is an allowed change. -/
theorem finished_change (hs : b.closed = false → Sound b) {reply : Except String Object}
    {order : List String} (hread : b.read = some (.done reply)) :
    Change b (.finished order) (b.finished reply order).1 (b.finished reply order).2 := by
  rw [Bridge.finished]
  split
  · rename_i hclosed
    exact .dropped rfl rfl (.inl rfl) hclosed rfl rfl rfl
  · rename_i hclosed
    have hsound : Sound { b with refreshing := false, read := none } :=
      (hs (by simpa using hclosed)).frame rfl rfl rfl rfl
    have ht := take_steady { b with refreshing := false, read := none } reply order
    obtain ⟨hstate, hkey⟩ := take_radio hsound reply order
    have hset := settle_still (Bridge.take { b with refreshing := false, read := none } reply order).2
    exact .taken reply hread rfl (hset.key.trans ht.key) (hset.read.trans ht.read)
      (hset.closed.trans ht.closed) (hset.radioKey.trans hkey) (hset.radioState.trans hstate)
      ht.feeds

/-- **What a step can do.** -/
theorem step_change (hs : b.closed = false → Sound b) (h : b.step e = some (effects, b')) :
    Change b e effects b' := by
  cases e with
  | watchStatus watched key =>
      obtain ⟨-, h⟩ := Option.ite_none_left_eq_some.mp h
      obtain ⟨rfl, rfl⟩ := Prod.ext_iff.mp (Option.some.inj h)
      have hwatch : Still b [] (if watched then b else { b with events := b.events.later .watch }) := by
        split <;> exact ⟨⟨rfl, rfl, rfl, fun _ => List.not_mem_nil⟩, rfl, rfl⟩
      exact .of_readHost hwatch rfl rfl
  | statusChanged directory file key =>
      obtain ⟨-, h⟩ := Option.ite_none_left_eq_some.mp h
      obtain ⟨rfl, rfl⟩ := Prod.ext_iff.mp (Option.some.inj h)
      have hwatch : Still b []
          (if directory then { b with events := b.events.later .watch } else b) := by
        split <;> exact ⟨⟨rfl, rfl, rfl, fun _ => List.not_mem_nil⟩, rfl, rfl⟩
      simp only [Bridge.statusChanged]
      by_cases hr : directory ∨ file
      · rw [if_pos hr]
        exact .of_readHost hwatch (by simp only [Event.reads, hr, if_true]) rfl
      · rw [if_neg hr]
        exact .still hwatch rfl
  | fire name watched key order =>
      obtain ⟨-, h⟩ := Option.ite_none_right_eq_some.mp h
      obtain ⟨rfl, rfl⟩ := Prod.ext_iff.mp (Option.some.inj h)
      exact fire_change
  | startDiscovery sender order =>
      obtain ⟨-, h⟩ := Option.ite_none_left_eq_some.mp h
      obtain ⟨rfl, rfl⟩ := Prod.ext_iff.mp (Option.some.inj h)
      exact refresh_change (startDiscovery_still b sender) rfl true order
  | stopDiscovery sender =>
      obtain ⟨-, h⟩ := Option.ite_none_left_eq_some.mp h
      obtain ⟨rfl, rfl⟩ := Prod.ext_iff.mp (Option.some.inj h)
      exact .still (stopDiscovery_still b sender) rfl
  | ownerChanged name newOwner =>
      obtain ⟨-, h⟩ := Option.ite_none_left_eq_some.mp h
      obtain ⟨rfl, rfl⟩ := Prod.ext_iff.mp (Option.some.inj h)
      rw [Bridge.ownerChanged]
      split
      · exact .still (stopDiscovery_still b name) rfl
      · exact .still ⟨⟨rfl, rfl, rfl, fun _ => List.not_mem_nil⟩, rfl, rfl⟩ rfl
  | operate =>
      obtain ⟨-, h⟩ := Option.ite_none_left_eq_some.mp h
      cases h
      exact .still ⟨⟨rfl, rfl, rfl, fun _ => List.not_mem_nil⟩, rfl, rfl⟩ rfl
  | operationEnds ok =>
      obtain ⟨-, h⟩ := Option.ite_none_right_eq_some.mp h
      cases h
      exact .still ⟨⟨rfl, rfl, rfl, fun _ => List.not_mem_nil⟩, rfl, rfl⟩ rfl
  | operated =>
      simp only [Bridge.step] at h
      split at h
      · rename_i ok _
        cases h
        rw [Bridge.operated]
        split
        · exact .still ⟨⟨rfl, rfl, rfl, fun _ => List.not_mem_nil⟩, rfl, rfl⟩ rfl
        · have hframe : Still b []
              (if ok then
                { b with pending := false, operation := none, refreshAgain := true }
              else { b with pending := false, operation := none }) := by
            split <;> exact ⟨⟨rfl, rfl, rfl, fun _ => List.not_mem_nil⟩, rfl, rfl⟩
          exact .still (hframe.append (settle_still _)) rfl
      · cases h
  | request =>
      simp only [Bridge.step] at h
      split at h
      · cases h
        exact .requested .scanning (.inl rfl)
      · cases h
        exact .requested .reading (.inr rfl)
      · cases h
  | reply result =>
      simp only [Bridge.step] at h
      split at h
      · rename_i hread
        cases h
        exact .scanned _ hread
      · rename_i text hread
        cases h
        exact .replied _ (.inr ⟨hread, text, rfl⟩)
      · rename_i hread
        cases h
        exact .replied _ (.inl hread)
      · cases h
  | finished order =>
      simp only [Bridge.step] at h
      split at h
      · rename_i reply hread
        obtain ⟨rfl, rfl⟩ := Prod.ext_iff.mp (Option.some.inj h)
        exact finished_change hs hread
      · cases h
  | close =>
      cases h
      exact .dropped rfl rfl (.inr rfl) rfl rfl rfl rfl

/-! ### The tree in a run -/

/-- An update keeps the bridge sound. -/
theorem update_sound (h : Sound b) (state : Object) (order : List String) :
    Sound (b.update state order).bridge :=
  call_sound h (.update state order)

/-- A failure keeps the bridge sound. -/
theorem fail_sound (h : Sound b) (order : List String) : Sound (b.fail order).2 :=
  (update_sound h Bridge.unavailable order).frame rfl rfl rfl rfl

theorem take_sound (h : Sound b) (reply : Except String Object) (order : List String) :
    Sound (b.take reply order).2 := by
  cases reply with
  | error e => exact fail_sound h order
  | ok state =>
      simp only [Bridge.take]
      split
      · exact update_sound h state order
      · exact fail_sound (update_sound h state order) order

/-- Settling after a read keeps the bridge sound. -/
theorem settle_sound (h : Sound b) : Sound b.settle := by
  rw [Bridge.settle, Bridge.scheduleDiscovery]
  split_ifs <;> exact h.frame rfl rfl rfl rfl

/-- A refresh keeps the bridge sound. -/
theorem refresh_sound (h : Sound b) (scan : Bool) (order : List String) :
    Sound (b.refresh scan order).2 := by
  rw [Bridge.refresh]
  split
  · exact h
  split
  · exact h.frame rfl rfl rfl rfl
  split
  · exact update_sound h Bridge.unavailable order
  · exact h.frame rfl rfl rfl rfl

/-- Watching the host's status keeps the bridge sound. -/
theorem watchStatus_sound (h : Sound b) (watched : Bool) (key : Option HostKey) :
    Sound (b.watchStatus watched key).2 := by
  rw [Bridge.watchStatus]
  split <;> exact h.frame rfl rfl rfl rfl

/-- A timer keeps the bridge sound. -/
theorem fire_sound (h : Sound b) (name : Timer) (watched : Bool) (key : Option HostKey)
    (order : List String) : Sound (b.fire name watched key order).2 := by
  have hframe : Sound { b with events := b.events.removeSource name } := h.frame rfl rfl rfl rfl
  simp only [Bridge.fire]
  split
  · exact hframe
  · cases name with
    | refresh => exact refresh_sound hframe false order
    | retry => exact h.frame rfl rfl rfl rfl
    | reconcile => exact h.frame rfl rfl rfl rfl
    | expiry => exact h.frame rfl rfl rfl rfl
    | watch => exact watchStatus_sound hframe watched key
    | discovery => exact refresh_sound hframe true order

/-- A bridge that is open now was open before. -/
theorem Change.opened (h : Change b e effects b') (hclosed : b'.closed = false) :
    b.closed = false := by
  cases h with
  | still h => exact h.closed.symm.trans hclosed
  | keyed _ _ _ _ _ h => exact h.symm.trans hclosed
  | idle h => exact h.closed.symm.trans hclosed
  | submitted _ _ _ _ h => exact h.symm.trans hclosed
  | requested => exact hclosed
  | scanned => exact hclosed
  | replied => exact hclosed
  | taken _ _ _ _ _ h => exact h.symm.trans hclosed
  | dropped _ _ _ h =>
      rw [h] at hclosed
      cases hclosed

/-- The service keeps its tree as the calls do, until it closes. -/
theorem step_sound (hs : b.closed = false → Sound b) (h : b.step e = some (effects, b'))
    (hclosed : b'.closed = false) : Sound b' := by
  -- A bridge that is open after the step was open before it, and then its tree was sound.
  have hopen := (step_change hs h).opened hclosed
  have hb := hs hopen
  cases e with
  | watchStatus watched key =>
      obtain ⟨-, h⟩ := Option.ite_none_left_eq_some.mp h
      obtain ⟨rfl, rfl⟩ := Prod.ext_iff.mp (Option.some.inj h)
      exact watchStatus_sound hb watched key
  | statusChanged directory file key =>
      obtain ⟨-, h⟩ := Option.ite_none_left_eq_some.mp h
      obtain ⟨rfl, rfl⟩ := Prod.ext_iff.mp (Option.some.inj h)
      simp only [Bridge.statusChanged]
      split_ifs <;> exact hb.frame rfl rfl rfl rfl
  | fire name watched key order =>
      obtain ⟨-, h⟩ := Option.ite_none_right_eq_some.mp h
      obtain ⟨rfl, rfl⟩ := Prod.ext_iff.mp (Option.some.inj h)
      exact fire_sound hb name watched key order
  | startDiscovery sender order =>
      obtain ⟨-, h⟩ := Option.ite_none_left_eq_some.mp h
      obtain ⟨rfl, rfl⟩ := Prod.ext_iff.mp (Option.some.inj h)
      exact refresh_sound (call_sound hb (.startDiscovery sender)) true order
  | stopDiscovery sender =>
      obtain ⟨-, h⟩ := Option.ite_none_left_eq_some.mp h
      obtain ⟨rfl, rfl⟩ := Prod.ext_iff.mp (Option.some.inj h)
      exact call_sound hb (.stopDiscovery sender)
  | ownerChanged name newOwner =>
      obtain ⟨-, h⟩ := Option.ite_none_left_eq_some.mp h
      obtain ⟨rfl, rfl⟩ := Prod.ext_iff.mp (Option.some.inj h)
      exact call_sound hb (.ownerChanged name newOwner)
  | operate =>
      obtain ⟨-, h⟩ := Option.ite_none_left_eq_some.mp h
      cases h
      exact hb.frame rfl rfl rfl rfl
  | operationEnds ok =>
      obtain ⟨-, h⟩ := Option.ite_none_right_eq_some.mp h
      cases h
      exact hb.frame rfl rfl rfl rfl
  | operated =>
      simp only [Bridge.step] at h
      split at h
      · cases h
        rw [Bridge.operated]
        split_ifs
        · exact hb.frame rfl rfl rfl rfl
        · exact settle_sound (hb.frame rfl rfl rfl rfl)
        · exact settle_sound (hb.frame rfl rfl rfl rfl)
      · cases h
  | request =>
      simp only [Bridge.step] at h
      split at h
      · cases h
        exact hb.frame rfl rfl rfl rfl
      · cases h
        exact hb.frame rfl rfl rfl rfl
      · cases h
  | reply result =>
      simp only [Bridge.step] at h
      split at h
      · cases h
        exact hb.frame rfl rfl rfl rfl
      · cases h
        exact hb.frame rfl rfl rfl rfl
      · cases h
        exact hb.frame rfl rfl rfl rfl
      · cases h
  | finished order =>
      simp only [Bridge.step] at h
      split at h
      · rename_i reply _
        obtain ⟨rfl, rfl⟩ := Prod.ext_iff.mp (Option.some.inj h)
        simp only [Bridge.finished]
        have hframe : Sound { b with refreshing := false, read := none } := hb.frame rfl rfl rfl rfl
        split
        · exact hframe
        · exact settle_sound (take_sound hframe reply order)
      · cases h
  | close =>
      cases h
      cases hclosed

end Step

/-! ### Fresh replies -/

/-- The bridge when its main loop starts: after the update of `__main__`. -/
def Bridge.start (reply : Except String Object) (order : List String) : Bridge :=
  match reply with
  | .error _ => (Bridge.new.update unavailable order).bridge
  | .ok state =>
      let c := Bridge.new.update state order
      if c.raised = none then c.bridge else (c.bridge.update unavailable order).bridge

section Fresh
variable (b₀ : Bridge)

/-- The last request of the read was started, as `r`, under the key that is still current. -/
def Asked (r : Read) : List (Event × List Effect) → Bridge → Prop :=
  Since (fun b e effects b' => b.step e = some (effects, b'))
    (fun _ _ e _ m => e = .request ∧ m.read = some r)
    (fun m e _ m' => m'.events.key = m.events.key ∧ e.isWorkers = false) b₀

/-- The reply is one to a request that was started under the key that is still current: of the
devices, or of a scan that failed. -/
def Fresh (reply : Except String Object) : List (Event × List Effect) → Bridge → Prop :=
  Since (fun b e effects b' => b.step e = some (effects, b'))
    (fun t m e _ _ => e = .reply reply ∧
      (Asked b₀ .reading t m ∨ Asked b₀ .scanning t m ∧ ∃ text, reply = .error text))
    (fun m _ _ m' => m'.events.key = m.events.key) b₀

end Fresh

/-- A request of a read is out, or its result waits. -/
def Bridge.requested (b : Bridge) : Bool :=
  match b.read with
  | none | some (.waiting _) => false
  | _ => true

/-- Another key is read only while no request is out and no result waits, and then it is not an
active one that the cached state is stamped with. -/
def Bridge.calm (b : Bridge) (e : Event) : Bool :=
  match e.reads with
  | none => true
  | some key =>
      key = b.events.key ∨
        b.requested = false ∧ ¬ (key ≠ none ∧ isActive key ∧ key = b.radioKey)

/-- A run of calm steps. -/
abbrev CalmRun : Bridge → List (Event × List Effect) → Bridge → Prop :=
  Steps fun b e effects b' => b.step e = some (effects, b') ∧ b.calm e

/-- What is out, what waits and what is cached is fresh. -/
structure Provenance (b₀ : Bridge) (t : List (Event × List Effect)) (b : Bridge) : Prop where
  run : Bridge.Run b₀ t b
  sound : b.closed = false → Sound b
  asked : ∀ r, r = .scanning ∨ r = .reading → b.read = some r → Asked b₀ r t b
  waits : ∀ reply, b.read = some (.done reply) → Fresh b₀ reply t b
  cached : b.events.key ≠ none → b.events.key = b.radioKey → b.events.active = true →
    ∃ reply, b.radioState = stateOf reply ∧ Fresh b₀ reply t b

section Provenance
variable {b₀ b b' : Bridge} {t : List (Event × List Effect)} {e : Event} {effects : List Effect}

/-- A step of others that keeps the key and the read keeps what is out and what waits. -/
theorem Provenance.keep (h : Provenance b₀ t b) (hstep : b.step e = some (effects, b'))
    (he : e.isWorkers = false) (hkey : b'.events.key = b.events.key)
    (hread : b'.read = none ∨ b'.read = b.read)
    (hcached : b'.events.key ≠ none → b'.events.key = b'.radioKey → b'.events.active = true →
      ∃ reply, b'.radioState = stateOf reply ∧ Fresh b₀ reply t b) :
    Provenance b₀ (t ++ [(e, effects)]) b' where
  run := h.run.append (.one hstep)
  sound := step_sound h.sound hstep
  asked := by
    intro r hr hr'
    rcases hread with hread | hread
    · rw [hread] at hr'
      cases hr'
    · exact (h.asked r hr (hread ▸ hr')).later hstep ⟨hkey, he⟩
  waits := by
    intro reply hreply
    rcases hread with hread | hread
    · rw [hread] at hreply
      cases hreply
    · exact (h.waits reply (hread ▸ hreply)).later hstep hkey
  cached := by
    intro hnone hradio hactive
    obtain ⟨reply, hstate, hfresh⟩ := hcached hnone hradio hactive
    exact ⟨reply, hstate, hfresh.later hstep hkey⟩

/-- The cached state when neither it nor the key changes. -/
theorem Provenance.cached_of_eq (h : Provenance b₀ t b) (hkey : b'.events.key = b.events.key)
    (hradioKey : b'.radioKey = b.radioKey) (hstate : b'.radioState = b.radioState)
    (hnone : b'.events.key ≠ none) (hradio : b'.events.key = b'.radioKey)
    (hactive : b'.events.active = true) :
    ∃ reply, b'.radioState = stateOf reply ∧ Fresh b₀ reply t b := by
  rw [BluetoothEvents.active, hkey] at hactive
  rw [hkey] at hnone hradio
  rw [hradioKey] at hradio
  obtain ⟨reply, hreply, hfresh⟩ := h.cached hnone hradio hactive
  exact ⟨reply, hstate.trans hreply, hfresh⟩

/-- A step that keeps the key and leaves a read that has nothing out. -/
theorem Provenance.wait (h : Provenance b₀ t b) (hstep : b.step e = some (effects, b'))
    (hkey : b'.events.key = b.events.key) {scan : Bool} (hread : b'.read = some (.waiting scan))
    (hradioKey : b'.radioKey = b.radioKey) (hstate : b'.radioState = b.radioState) :
    Provenance b₀ (t ++ [(e, effects)]) b' where
  run := h.run.append (.one hstep)
  sound := step_sound h.sound hstep
  asked := by
    rintro r (rfl | rfl) hr <;>
    · rw [hread] at hr
      cases hr
  waits := by
    intro reply hreply
    rw [hread] at hreply
    cases hreply
  cached := by
    intro hnone hradio hactive
    obtain ⟨reply, hreply, hfresh⟩ := h.cached_of_eq hkey hradioKey hstate hnone hradio hactive
    exact ⟨reply, hreply, hfresh.later hstep hkey⟩

/-- A calm step that reads another key. -/
theorem calm_spec {key : Option HostKey} (hcalm : b.calm e) (hr : e.reads = some key)
    (hne : key ≠ b.events.key) :
    b.requested = false ∧ ¬ (key ≠ none ∧ isActive key ∧ key = b.radioKey) := by
  simp only [Bridge.calm, hr, decide_eq_true_eq] at hcalm
  exact hcalm.resolve_left hne

/-- A key is read. -/
theorem Provenance.key (h : Provenance b₀ t b) (hstep : b.step e = some (effects, b'))
    (hcalm : b.calm e) {key : Option HostKey} (hr : e.reads = some key)
    (he : e.isWorkers = false) (hkey : b'.events.key = key) (hread : b'.read = b.read)
    (hradioKey : b'.radioKey = b.radioKey) (hstate : b'.radioState = b.radioState) :
    Provenance b₀ (t ++ [(e, effects)]) b' := by
  by_cases hsame : key = b.events.key
  · subst hsame
    exact h.keep hstep he hkey (.inr hread) (h.cached_of_eq hkey hradioKey hstate)
  · obtain ⟨hquiet, hother⟩ := calm_spec hcalm hr hsame
    rw [Bridge.requested] at hquiet
    refine ⟨h.run.append (.one hstep), step_sound h.sound hstep, ?_, ?_, ?_⟩
    · rintro r (rfl | rfl) hr' <;>
      · rw [← hread, hr'] at hquiet
        cases hquiet
    · intro reply hreply
      rw [← hread, hreply] at hquiet
      cases hquiet
    · intro hnone hradio hactive
      rw [BluetoothEvents.active, hkey] at hactive
      rw [hkey] at hnone hradio
      exact absurd ⟨hnone, hactive, hradio.trans hradioKey⟩ hother

/-- **A calm step keeps the provenance.** -/
theorem Provenance.step (h : Provenance b₀ t b) (hstep : b.step e = some (effects, b'))
    (hcalm : b.calm e) : Provenance b₀ (t ++ [(e, effects)]) b' := by
  cases step_change h.sound hstep with
  | still hs he =>
      exact h.keep hstep he hs.key (.inr hs.read) (h.cached_of_eq hs.key hs.radioKey hs.radioState)
  | keyed key hr he hkey hread hclosed hradioKey hstate heffects =>
      exact h.key hstep hcalm hr he hkey hread hradioKey hstate
  | idle hs he hactive hradioKey =>
      refine h.keep hstep he hs.key (.inr hs.read) fun _ _ hactive' => ?_
      rw [BluetoothEvents.active, hs.key] at hactive'
      rw [BluetoothEvents.active, hactive'] at hactive
      cases hactive
  | submitted scan he hkey hread hclosed hradioKey hstate hfeeds =>
      exact h.wait hstep hkey hread hradioKey hstate
  | requested r hr =>
      refine ⟨h.run.append (.one hstep), step_sound h.sound hstep, ?_, ?_, ?_⟩
      · intro r' hr' hread
        cases hread
        exact .now h.run hstep ⟨rfl, rfl⟩
      · intro reply hreply
        rcases hr with rfl | rfl <;> cases hreply
      · intro hnone hradio hactive
        obtain ⟨reply, hstate, hfresh⟩ := h.cached hnone hradio hactive
        exact ⟨reply, hstate, hfresh.later hstep rfl⟩
  | scanned result hread => exact h.wait hstep rfl rfl rfl rfl
  | replied result hread =>
      refine ⟨h.run.append (.one hstep), step_sound h.sound hstep, ?_, ?_, ?_⟩
      · rintro r (rfl | rfl) hr <;> cases hr
      · intro reply hreply
        cases hreply
        refine .now h.run hstep ⟨rfl, ?_⟩
        rcases hread with hread | ⟨hread, herror⟩
        · exact .inl (h.asked .reading (.inr rfl) hread)
        · exact .inr ⟨h.asked .scanning (.inl rfl) hread, herror⟩
      · intro hnone hradio hactive
        obtain ⟨reply, hstate, hfresh⟩ := h.cached hnone hradio hactive
        exact ⟨reply, hstate, hfresh.later hstep rfl⟩
  | taken reply hread he hkey hread' hclosed hradioKey hstate hfeeds =>
      exact h.keep hstep he hkey (.inl hread') fun _ _ _ => ⟨reply, hstate, h.waits reply hread⟩
  | dropped he hkey hread hclosed hradioKey hstate hfeeds =>
      exact h.keep hstep he hkey hread (h.cached_of_eq hkey hradioKey hstate)

/-- **A calm step feeds only a fresh state.** -/
theorem Provenance.feed (h : Provenance b₀ t b) (hstep : b.step e = some (effects, b'))
    (hcalm : b.calm e) {n : Nat} (hn : Effect.feed n ∈ effects) :
    b'.events.key = b.events.key ∧ b.events.key ≠ none ∧
      ∃ reply, n = stateOf reply ∧ Fresh b₀ reply t b := by
  cases step_change h.sound hstep with
  | still hs he => exact absurd hn (hs.feeds n)
  | keyed key hr he hkey hread hclosed hradioKey hstate heffects =>
      rw [heffects] at hn
      split at hn
      · rw [Bridge.heartbeat] at hn
        split at hn
        · rename_i hbeat
          obtain ⟨hnone, hradio, hactive⟩ := hbeat
          obtain rfl : n = b'.radioState := by simpa using hn
          have hsame : key = b.events.key := by
            by_contra hne
            refine (calm_spec hcalm hr hne).2 ⟨hkey ▸ hnone, ?_, ?_⟩
            · rw [← hkey]
              exact hactive
            · rw [← hkey, hradio, hradioKey]
          rw [hsame] at hkey
          exact ⟨hkey, hkey ▸ hnone, h.cached_of_eq hkey hradioKey hstate hnone hradio hactive⟩
        · cases hn
      · cases hn
  | idle hs he => exact absurd hn (hs.feeds n)
  | submitted scan he hkey hread hclosed hradioKey hstate hfeeds => exact absurd hn (hfeeds n)
  | requested r hr => cases hn
  | scanned result hread => cases hn
  | replied result hread => cases hn
  | taken reply hread he hkey hread' hclosed hradioKey hstate hfeeds => exact absurd hn (hfeeds n)
  | dropped he hkey hread hclosed hradioKey hstate hfeeds =>
      rw [hfeeds] at hn
      cases hn

end Provenance

/-- What the bridge starts with comes from the reply of its first read. -/
theorem start_provenance (reply : Except String Object) (order : List String) :
    Provenance (.start reply order) [] (.start reply order) := by
  have hstart : Sound (Bridge.start reply order) ∧ (Bridge.start reply order).events.key = none ∧
      (Bridge.start reply order).read = none := by
    cases reply with
    | error text =>
        have hs := update_steady .new Bridge.unavailable order
        exact ⟨update_sound new_sound _ order, hs.key, hs.read⟩
    | ok state =>
        have hs := update_steady .new state order
        have hsound := update_sound new_sound state order
        simp only [Bridge.start]
        split
        · exact ⟨hsound, hs.key, hs.read⟩
        · have hs' := update_steady (Bridge.new.update state order).bridge Bridge.unavailable order
          exact ⟨update_sound hsound _ order, hs'.key.trans hs.key, hs'.read.trans hs.read⟩
  obtain ⟨hsound, hkey, hread⟩ := hstart
  refine ⟨.refl _, fun _ => hsound, ?_, ?_, fun hnone => absurd hkey hnone⟩
  · intro r _ hr
    rw [hread] at hr
    cases hr
  · intro reply hreply
    rw [hread] at hreply
    cases hreply

/-- In a calm run every state of the radio has a reply it comes from. -/
theorem CalmRun.provenance {b₀ b : Bridge} {t : List (Event × List Effect)} (h : CalmRun b₀ t b)
    (h₀ : Provenance b₀ [] b₀) : Provenance b₀ t b :=
  Steps.invariant_trace (I := fun b t => Provenance b₀ t b)
    (fun hp hs => hp.step hs.1 hs.2) h h₀

/-- **In a calm run, the radio is fed only fresh states.**  Every heartbeat that writes does so under
a key that was already current when the last request of a read was started whose reply gave the
state. -/
theorem feeds_fresh {reply₀ : Except String Object} {order : List String}
    {t u : List (Event × List Effect)} {e : Event} {effects : List Effect} {b : Bridge} {n : Nat}
    (h : CalmRun (.start reply₀ order) (t ++ (e, effects) :: u) b) (hn : .feed n ∈ effects) :
    ∃ m m', Bridge.Run (.start reply₀ order) t m ∧ m.step e = some (effects, m') ∧
      m'.events.key = m.events.key ∧ m.events.key ≠ none ∧
      ∃ reply, n = stateOf reply ∧ Fresh (.start reply₀ order) reply t m := by
  obtain ⟨m, m', ht, ⟨hstep, hcalm⟩, -⟩ := Steps.split_at h
  have hp := CalmRun.provenance ht (start_provenance reply₀ order)
  obtain ⟨hkey, hnone, hfresh⟩ := hp.feed hstep hcalm hn
  exact ⟨m, m', hp.run, hstep, hkey, hnone, hfresh⟩

def sampleKey (revision : String) : Option HostKey := some ⟨revision, some true, some 0⟩

/-- The radio of the host is on. -/
def sampleReply : Except String Object := .ok (sampleState [])

/-- The bridge when the host could not be reached at first. -/
def sampleStart : Bridge := .start (.error "unreachable") []

/-- A read under the first revision, with `between` before its reply. -/
def sampleEvents (between : List Event) : List Event :=
  [Event.watchStatus true (sampleKey "1"), .fire .refresh true none [], .request] ++ between ++
    [Event.reply sampleReply, .finished []]

/-- In the sample run the radio is fed with 3, from a read that was asked under the current key. -/
theorem feeds_fresh_sample :
    ∃ t e effects b, CalmRun sampleStart (t ++ (e, effects) :: []) b ∧ .feed 3 ∈ effects ∧
      ∃ m m', Bridge.Run sampleStart t m ∧ m.step e = some (effects, m') ∧
        m'.events.key = m.events.key ∧ m.events.key ≠ none ∧
        ∃ reply, 3 = stateOf reply ∧ Fresh sampleStart reply t m := by
  have hplay : ((play (fun b e => if b.calm e then b.step e else none) sampleStart
      (sampleEvents [])).bind fun x =>
        (if x.2.calm (.statusChanged false true (sampleKey "1")) then
          x.2.step (.statusChanged false true (sampleKey "1")) else none).map Prod.fst) =
      some [.feed 3] := by decide +kernel
  obtain ⟨⟨t, m⟩, hplayed, hplay⟩ := Option.bind_eq_some_iff.mp hplay
  obtain ⟨⟨effects, m'⟩, hstep, hfeed⟩ := Option.map_eq_some_iff.mp hplay
  obtain rfl : effects = [.feed 3] := hfeed
  have hrun : CalmRun sampleStart t m := Steps.of_play_guarded hplayed
  obtain ⟨hcalm, hstep⟩ := Option.ite_none_right_eq_some.mp hstep
  have hall : CalmRun sampleStart (t ++ (.statusChanged false true (sampleKey "1"), [.feed 3]) :: [])
      m' := hrun.append (.one ⟨hstep, hcalm⟩)
  exact ⟨t, _, _, m', hall, List.mem_singleton.mpr rfl,
    feeds_fresh hall (List.mem_singleton.mpr rfl)⟩

/-- What the worker does leaves the key. -/
theorem workers_key {b b' : Bridge} {e : Event} {effects : List Effect} (he : e.isWorkers = true)
    (h : b.step e = some (effects, b')) : b'.events.key = b.events.key := by
  cases e with
  | request =>
      simp only [Bridge.step] at h
      split at h <;> cases h <;> rfl
  | reply result =>
      simp only [Bridge.step] at h
      split at h <;> cases h <;> rfl
  | _ => cases he

theorem key_eq_of_steps {Q : Bridge → Event → List Effect → Bridge → Prop} {b b' : Bridge}
    {t : List (Event × List Effect)} (hQ : ∀ {b e effects b'}, Q b e effects b' →
      b'.events.key = b.events.key)
    (h : Steps (fun b e effects b' => b.step e = some (effects, b') ∧ Q b e effects b') b t b') :
    b'.events.key = b.events.key :=
  h.invariant (I := fun m => m.events.key = b.events.key)
    (fun hm hs => (hQ hs.2).trans hm) rfl

/-- A read that was asked for under the current key goes back to a request under it. -/
theorem Asked.request {b₀ b : Bridge} {r : Read} {t : List (Event × List Effect)}
    (h : Asked b₀ r t b) :
    ∃ u o v m, t = u ++ (Event.request, o) :: v ∧ Bridge.Run b₀ u m ∧ m.events.key = b.events.key := by
  obtain ⟨u, e, o, v, m, m', rfl, hu, hstep, ⟨rfl, -⟩, hv⟩ := h
  have hafter := key_eq_of_steps (fun h => h.1) hv
  exact ⟨u, o, v, m, rfl, hu, ((hafter.trans (workers_key rfl hstep)).symm)⟩

/-- What is fresh was asked for under the current key. -/
theorem Fresh.request {b₀ b : Bridge} {reply : Except String Object}
    {t : List (Event × List Effect)} (h : Fresh b₀ reply t b) :
    ∃ u o v m, t = u ++ (Event.request, o) :: v ∧ Bridge.Run b₀ u m ∧ m.events.key = b.events.key := by
  obtain ⟨t₁, e, o₁, v₁, m₁, m₁', rfl, -, hstep, ⟨rfl, hasked⟩, hv⟩ := h
  have hafter := (key_eq_of_steps id hv).trans (workers_key rfl hstep)
  have hrequest : ∃ u o v m, t₁ = u ++ (Event.request, o) :: v ∧ Bridge.Run b₀ u m ∧
      m.events.key = m₁.events.key := by
    rcases hasked with hasked | ⟨hasked, -⟩ <;> exact hasked.request
  obtain ⟨u, o, v, m, rfl, hu, hkey⟩ := hrequest
  exact ⟨u, o, v ++ (.reply reply, o₁) :: v₁, m, by simp, hu, hkey.trans hafter.symm⟩

/-- **A state can be fed that is older than the revision.**  The key changes while the request of
the devices is out; its reply is stamped with the new key and fed under it. -/
theorem stale_fed :
    ∃ t e effects b b', Bridge.Run sampleStart t b ∧ b.step e = some (effects, b') ∧
      .feed 3 ∈ effects ∧ ¬ ∃ reply, 3 = stateOf reply ∧ Fresh sampleStart reply t b := by
  have hplay : ((play Bridge.step sampleStart
      (sampleEvents [.statusChanged false true (sampleKey "2")])).bind fun x =>
        (x.2.step (.statusChanged false true (sampleKey "2"))).map fun y => (y.1, x.2.events.key)) =
      some ([.feed 3], sampleKey "2") := by decide +kernel
  obtain ⟨⟨t, b⟩, hplayed, hplay⟩ := Option.bind_eq_some_iff.mp hplay
  obtain ⟨⟨effects, b'⟩, hstep, hfeed⟩ := Option.map_eq_some_iff.mp hplay
  obtain ⟨rfl, hkey⟩ := Prod.ext_iff.mp hfeed
  refine ⟨t, _, _, b, b', Steps.of_play hplayed, hstep, List.mem_singleton.mpr rfl, ?_⟩
  rintro ⟨reply, -, hfresh⟩
  obtain ⟨u, o, v, m, rfl, hu, hm⟩ := hfresh.request
  -- The only request of the run was started under the first revision.
  have hbefore : u.map Prod.fst =
      [.watchStatus true (sampleKey "1"), .fire .refresh true none []] := by
    have hevents := play_events hplayed
    rw [List.map_append, List.map_cons] at hevents
    generalize u.map Prod.fst = es at hevents ⊢
    rcases es with _ | ⟨_, _ | ⟨_, _ | ⟨_, _ | ⟨_, _ | ⟨_, _ | ⟨_, es⟩⟩⟩⟩⟩⟩ <;>
      simp [sampleEvents] at hevents
    simp [hevents]
  have hfirst : (play Bridge.step sampleStart (u.map Prod.fst)).map (·.2.events.key) =
      some (sampleKey "1") := by
    rw [hbefore]
    decide +kernel
  rw [hu.play_eq] at hfirst
  have hsame : sampleKey "1" = sampleKey "2" := (Option.some.inj hfirst).symm.trans (hm.trans hkey)
  exact absurd hsame (by decide)

end Ashacky.Devices.Bluetooth
