import Ashacky.Devices.Bluetooth
import Ashacky.Support.Effect

/-!
# Devices — Mirror

The bridge's tree of objects against a D-Bus client that follows its signals.  The client takes the
answer to `GetManagedObjects` and applies to it each signal that is emitted afterwards; it then has
the bridge's tree, up to the order of the entries (`view`).

* `apply_congr`: what the client makes of a signal depends on its tree only up to that order, so it
  can be compared with the bridge's own tree.
* `Sound`: a path has one interface, which it determines together with the names of its
  properties; so what changed in the properties says everything.
* `publish_mirrors`, `discoveryChanged_mirrors`: the calls are mirrored, and keep `Sound`.
* `current_shaped`: an update raises before it touches the tree, or not at all.
-/

namespace Ashacky.Devices.Bluetooth
open Ashacky.Support
open Ashacky.Control (Json Object)

/-! ### The client -/

/-- What a client knows after a signal.  An object goes with its last interface. -/
def apply (known : Objects) : Signal → Objects
  | .interfacesAdded path interfaces =>
      put known path (overlay ((known.lookup path).getD []) interfaces)
  | .interfacesRemoved path names =>
      let rest := ((known.lookup path).getD []).filter (·.1 ∉ names)
      if rest = [] then known.filter (·.1 ≠ path) else put known path rest
  | .propertiesChanged path interface changed invalidated =>
      known.map fun e =>
        if e.1 = path then
          (e.1, e.2.map fun e =>
            if e.1 = interface then (e.1, overlay (e.2.filter (·.1 ∉ invalidated)) changed) else e)
        else e

/-- The signal, if the effect is one. -/
def Effect.signal? : Effect → Option Signal
  | .signal s => some s
  | _ => none

/-- The signals among the effects. -/
def signals (effects : List Effect) : List Signal := effects.filterMap Effect.signal?

/-- What a client knows after the signals among the effects. -/
def follow (known : Objects) (effects : List Effect) : Objects :=
  (signals effects).foldl apply known

theorem follow_append (known : Objects) (effects effects' : List Effect) :
    follow known (effects ++ effects') = follow (follow known effects) effects' := by
  simp only [follow, signals, List.filterMap_append, List.foldl_append]

/-! ### Trees up to the order of their entries -/

/-- The interfaces that are there, and the properties of each. -/
def viewInterfaces (interfaces : Interfaces) : String → Option (String → Option Variant) :=
  fun interface => (interfaces.lookup interface).map fun props key => props.lookup key

/-- The paths that are there, and the interfaces of each. -/
def view (objects : Objects) : String → Option (String → Option (String → Option Variant)) :=
  fun path => (objects.lookup path).map viewInterfaces

/-- What is a function of the view of an entry is one of the view of the dictionary. -/
theorem map_eq_of_map_eq {α β γ : Type} {x y : Option α} {v : α → β} {w : α → γ}
    (h : x.map v = y.map v) (hw : ∀ a b, v a = v b → w a = w b) : x.map w = y.map w := by
  cases x with
  | none =>
      cases y with
      | none => rfl
      | some b => cases h
  | some a =>
      cases y with
      | none => cases h
      | some b => rw [Option.map_some, Option.map_some, hw a b (Option.some.inj h)]

section View
variable {known known' : Objects} {path interface : String} {interfaces : Interfaces}

/-- What is laid over a dictionary of interfaces wins where both have an entry. -/
theorem viewInterfaces_overlay (old new : Interfaces) (interface : String) :
    viewInterfaces (overlay old new) interface =
      (viewInterfaces new interface).or (viewInterfaces old interface) := by
  rw [viewInterfaces, lookup_overlay]
  simp only [viewInterfaces]
  cases new.lookup interface <;> rfl

/-- Changing the properties of one interface shows at that interface only. -/
theorem viewInterfaces_at (interfaces : Interfaces) (interface : String)
    (f : Properties → Properties) (other : String) :
    viewInterfaces
        (interfaces.map fun e => if e.1 = interface then (e.1, f e.2) else e) other =
      if other = interface then (interfaces.lookup interface).map fun props key => (f props).lookup key
      else viewInterfaces interfaces other := by
  rw [viewInterfaces, lookup_map_at interfaces interface f]
  split
  · rw [Option.map_map]
    rfl
  · rfl

/-- A path that is put shows its new interfaces, and the other paths what they did. -/
theorem view_put (value : Interfaces) (other : String) :
    view (put known path value) other =
      if other = path then some (viewInterfaces value) else view known other := by
  rw [view, lookup_put]
  split <;> rfl

/-- A path that is dropped is gone, and the other paths show what they did. -/
theorem view_drop (other : String) :
    view (known.filter (·.1 ≠ path)) other = if other = path then none else view known other := by
  rw [view, lookup_filter_ne]
  split <;> rfl

/-- Changing the interfaces of one path shows at that path only. -/
theorem view_at (f : Interfaces → Interfaces) (other : String) :
    view (known.map fun e => if e.1 = path then (e.1, f e.2) else e) other =
      if other = path then (known.lookup path).map fun interfaces => viewInterfaces (f interfaces)
      else view known other := by
  rw [view, lookup_map_at known path f]
  split
  · rw [Option.map_map]
    rfl
  · rfl

/-- Dictionaries that show the same are empty together. -/
theorem viewInterfaces_congr_nil {a b : Interfaces} (h : viewInterfaces a = viewInterfaces b)
    (ha : a = []) : b = [] := by
  subst ha
  cases b with
  | nil => rfl
  | cons e b =>
      have he := congrFun h e.1
      rw [viewInterfaces, viewInterfaces, List.lookup_cons, beq_self_eq_true] at he
      cases he

/-- Trees that show the same have the same interfaces at a path, or none. -/
theorem viewInterfaces_getD (h : view known = view known') (path : String) :
    viewInterfaces ((known.lookup path).getD []) = viewInterfaces ((known'.lookup path).getD []) := by
  have hp : (known.lookup path).map viewInterfaces = (known'.lookup path).map viewInterfaces :=
    congrFun h path
  have hd := congrArg (·.getD (viewInterfaces [])) hp
  simpa only [Option.getD_map] using hd

/-- What is left of a dictionary shows as before. -/
theorem viewInterfaces_filter (p : String → Bool) (interface : String) :
    viewInterfaces (interfaces.filter fun e => p e.1) interface =
      if p interface then viewInterfaces interfaces interface else none := by
  rw [viewInterfaces, lookup_filter_key]
  split <;> rfl

/-- **What the client makes of a signal depends on its tree only up to the order.** -/
theorem apply_congr (h : view known = view known') (s : Signal) :
    view (apply known s) = view (apply known' s) := by
  funext other
  cases s with
  | interfacesAdded path interfaces =>
      simp only [apply, view_put]
      rw [funext (viewInterfaces_overlay _ interfaces), funext (viewInterfaces_overlay _ interfaces),
        viewInterfaces_getD h path, h]
  | interfacesRemoved path names =>
      have hrest : viewInterfaces (((known.lookup path).getD []).filter (·.1 ∉ names)) =
          viewInterfaces (((known'.lookup path).getD []).filter (·.1 ∉ names)) := by
        funext interface
        rw [viewInterfaces_filter (fun i => decide (i ∉ names)),
          viewInterfaces_filter (fun i => decide (i ∉ names)), viewInterfaces_getD h path]
      simp only [apply]
      by_cases hnil : ((known.lookup path).getD []).filter (·.1 ∉ names) = []
      · rw [if_pos hnil, if_pos (viewInterfaces_congr_nil hrest hnil), view_drop, view_drop, h]
      · rw [if_neg hnil, if_neg fun hn => hnil (viewInterfaces_congr_nil hrest.symm hn), view_put,
          view_put, hrest, h]
  | propertiesChanged path interface changed invalidated =>
      simp only [apply]
      rw [view_at, view_at, h]
      split
      · refine map_eq_of_map_eq (congrFun h path) fun a b hab => ?_
        funext other
        have hlaid := fun interfaces => viewInterfaces_at interfaces interface
          (fun props => overlay (props.filter (·.1 ∉ invalidated)) changed) other
        rw [hlaid, hlaid, hab]
        split
        · refine map_eq_of_map_eq (congrFun hab interface) fun props props' hp => ?_
          funext key
          rw [lookup_overlay, lookup_overlay, lookup_filter_key props fun k => decide (k ∉ invalidated),
            lookup_filter_key props' fun k => decide (k ∉ invalidated), congrFun hp key]
        · rfl
      · rfl

/-- What a client knows after the signals depends on what its tree shows before them. -/
theorem follow_congr (h : view known = view known') (effects : List Effect) :
    view (follow known effects) = view (follow known' effects) := by
  rw [follow, follow]
  induction signals effects generalizing known known' with
  | nil => exact h
  | cons s rest ih => exact ih (apply_congr h s)

end View

/-! ### What a path has -/

/-- The interface of a path. -/
def interfaceOf (path : String) : String :=
  if path = agentsPath then agentsInterface
  else if path = adapterPath then adapterInterface
  else deviceInterface

/-- The names of the properties of a path. -/
def keysOf (path : String) : List String :=
  if path = agentsPath then []
  else if path = adapterPath then
    ["Address", "AddressType", "Name", "Alias", "Class", "Powered", "Discoverable", "Pairable",
      "Discovering", "UUIDs"]
  else
    ["Address", "AddressType", "Name", "Alias", "Class", "Icon", "Paired", "Bonded", "Connected",
      "Trusted", "Blocked", "ServicesResolved", "UUIDs", "LegacyPairing", "Adapter"]

/-- The path has its one interface, with the properties of it. -/
def Shaped (path : String) (interfaces : Interfaces) : Prop :=
  ∃ props, interfaces = [(interfaceOf path, props)] ∧ props.map Prod.fst = keysOf path

/-- The properties of a path are named once each. -/
theorem keysOf_nodup (path : String) : (keysOf path).Nodup := by
  unfold keysOf
  split
  · exact List.nodup_nil
  · split <;> decide

/-- No object has the interface of the manager. -/
theorem interfaceOf_ne_manager (path : String) : interfaceOf path ≠ managerInterface := by
  unfold interfaceOf
  split
  · decide
  · split <;> decide

/-- The variants of properties stand under the same keys in the same order. -/
theorem variants_keys {values : List (String × Json)} {props : Properties}
    (h : variants values = .ok props) : props.map Prod.fst = values.map Prod.fst := by
  induction values generalizing props with
  | nil =>
      cases h
      rfl
  | cons e values ih =>
      obtain ⟨key, value⟩ := e
      rw [variants] at h
      obtain ⟨v, hv, h⟩ := except_bind_eq_ok.mp h
      obtain ⟨rest, hrest, h⟩ := except_bind_eq_ok.mp h
      cases h
      rw [List.map_cons, List.map_cons, ih hrest]

/-- No address makes a device collide with the adapter or with the agents' path. -/
theorem devicePath_ne (address : List Char) :
    devicePath address ≠ agentsPath ∧ devicePath address ≠ adapterPath := by
  constructor <;>
  · intro h
    have hlen := congrArg String.length h
    simp only [devicePath, adapterPath, agentsPath, String.length_append] at hlen
    have hadapter : "/org/bluez/hci0".length = 15 := by decide
    have hagents : "/org/bluez".length = 10 := by decide
    have hdev : "/dev_".length = 5 := by decide
    omega

/-- The object of a device record has the shape of its path. -/
theorem deviceProps_shaped {record : Json} {path : String} {props : Properties}
    (h : deviceProps record = .ok (path, props)) : Shaped path [(deviceInterface, props)] := by
  rw [deviceProps] at h
  obtain ⟨address, -, h⟩ := except_bind_eq_ok.mp h
  obtain ⟨cod, -, h⟩ := except_bind_eq_ok.mp h
  obtain ⟨uuids, -, h⟩ := except_bind_eq_ok.mp h
  obtain ⟨name, -, h⟩ := except_bind_eq_ok.mp h
  obtain ⟨paired, -, h⟩ := except_bind_eq_ok.mp h
  obtain ⟨connected, -, h⟩ := except_bind_eq_ok.mp h
  obtain ⟨rest, hrest, h⟩ := except_bind_eq_ok.mp h
  cases h
  obtain ⟨hagents, hadapter⟩ := devicePath_ne address
  refine ⟨rest ++ [("Adapter", .objectPath adapterPath)], ?_, ?_⟩
  · simp only [interfaceOf, if_neg hagents, if_neg hadapter]
  · rw [List.map_append, variants_keys hrest]
    simp only [keysOf, if_neg hagents, if_neg hadapter]
    rfl

theorem withDevices_shaped {records : List Json} {current current' : Objects}
    (h : Bridge.withDevices records current = .ok current') (hc : ∀ e ∈ current, Shaped e.1 e.2) :
    ∀ e ∈ current', Shaped e.1 e.2 := by
  induction records generalizing current with
  | nil =>
      cases h
      exact hc
  | cons record records ih =>
      rw [Bridge.withDevices] at h
      obtain ⟨⟨path, props⟩, hprops, h⟩ := except_bind_eq_ok.mp h
      refine ih h fun e he => ?_
      rcases mem_put he with he | rfl
      · exact hc e he
      · exact deviceProps_shaped hprops

/-- **What is to be published is of the right shape.** -/
theorem current_shaped {b : Bridge} {state : Object} {current : Objects}
    (h : b.current state = .ok current) : ∀ e ∈ current, Shaped e.1 e.2 := by
  rw [Bridge.current] at h
  obtain ⟨powered, -, h⟩ := except_bind_eq_ok.mp h
  obtain ⟨adapter, hadapter, h⟩ := except_bind_eq_ok.mp h
  obtain ⟨devices, -, h⟩ := except_bind_eq_ok.mp h
  obtain ⟨records, -, h⟩ := except_bind_eq_ok.mp h
  refine withDevices_shaped h fun e he => ?_
  rcases List.mem_cons.mp he with rfl | he
  · exact ⟨[], rfl, rfl⟩
  · obtain rfl := List.mem_singleton.mp he
    exact ⟨adapter, rfl, variants_keys hadapter⟩

/-! ### What the bridge keeps -/

/-- The tree is one of shaped paths, and what is registered is the manager and the tree. -/
structure Sound (b : Bridge) : Prop where
  distinct : DistinctKeys b.objects
  shaped : ∀ e ∈ b.objects, Shaped e.1 e.2
  registered : DistinctKeys b.registrations
  identifiers : (b.registrations.map Prod.snd).Nodup
  below : ∀ e ∈ b.registrations, e.2 < b.identifier
  exported : b.exported = b.registrations.map Prod.swap
  pairs : ∀ pair, pair ∈ b.registrations.map Prod.fst ↔
    pair = ("/", managerInterface) ∨
      pair.1 ∈ b.objects.map Prod.fst ∧ pair.2 = interfaceOf pair.1

/-- The call raised nothing, kept what the bridge keeps, and a client that had the tree before has
the tree after. -/
structure Mirrors (b : Bridge) (c : Called) : Prop where
  raised : c.raised = none
  sound : Sound c.bridge
  follows : view (follow b.objects c.effects) = view c.bridge.objects

/-- Two calls that a client can follow can follow each other. -/
theorem Mirrors.andThen {b : Bridge} {c : Called} {f : Bridge → Called} (h : Mirrors b c)
    (hf : Mirrors c.bridge (f c.bridge)) : Mirrors b (c.andThen f) := by
  rw [Called.andThen, h.raised]
  refine ⟨hf.raised, hf.sound, ?_⟩
  rw [follow_append, follow_congr h.follows]
  exact hf.follows

theorem Mirrors.refl {b : Bridge} (h : Sound b) : Mirrors b ⟨b, [], none⟩ := ⟨rfl, h, rfl⟩

/-- Every object in the tree has the shape of its path. -/
theorem Sound.lookup {b : Bridge} (h : Sound b) {path : String} {interfaces : Interfaces}
    (hl : b.objects.lookup path = some interfaces) :
    Shaped path interfaces :=
  h.shaped _ (mem_of_lookup hl)

/-- A change of anything but the tree and the registrations keeps the bridge sound. -/
theorem Sound.frame {b b' : Bridge} (h : Sound b) (ho : b'.objects = b.objects)
    (hr : b'.registrations = b.registrations) (he : b'.exported = b.exported)
    (hi : b'.identifier = b.identifier) : Sound b' := by
  obtain ⟨h₁, h₂, h₃, h₄, h₅, h₆, h₇⟩ := h
  rw [← ho] at h₁ h₂ h₇
  rw [← hr] at h₃ h₄ h₅ h₆ h₇
  rw [← hi] at h₅
  rw [← he] at h₆
  exact ⟨h₁, h₂, h₃, h₄, h₅, h₆, h₇⟩

/-- A new bridge exports the manager and nothing else. -/
theorem new_sound : Sound Bridge.new where
  distinct := List.nodup_singleton _
  shaped := by
    rintro e he
    obtain rfl := List.mem_singleton.mp he
    exact ⟨[], rfl, rfl⟩
  registered := by
    unfold DistinctKeys
    decide
  identifiers := by decide
  below := by decide
  exported := by decide
  pairs := by
    rintro ⟨path, interface⟩
    have hregs : Bridge.new.registrations.map Prod.fst =
        [("/", managerInterface), (agentsPath, agentsInterface)] := by decide
    have hpaths : Bridge.new.objects.map Prod.fst = [agentsPath] := by decide
    rw [hregs, hpaths]
    simp only [List.mem_cons, List.not_mem_nil, or_false, Prod.mk.injEq]
    refine or_congr_right (and_congr_right ?_)
    rintro rfl
    rfl

/-! ### A path goes -/

section Steps
variable {b : Bridge} {path : String}

/-- An object is dropped with its registration. -/
theorem Sound.drop (h : Sound b) {identifier : Nat}
    (hid : b.registrations.lookup (path, interfaceOf path) = some identifier) :
    Sound { b with
      objects := b.objects.filter (·.1 ≠ path)
      registrations := b.registrations.filter (·.1 ≠ (path, interfaceOf path))
      exported := b.exported.filter (·.1 ≠ identifier) } where
  distinct := (List.filter_sublist.map _).nodup h.distinct
  shaped := fun e he => h.shaped e (List.mem_of_mem_filter he)
  registered := (List.filter_sublist.map _).nodup h.registered
  identifiers := (List.filter_sublist.map _).nodup h.identifiers
  below := fun e he => h.below e (List.mem_of_mem_filter he)
  exported := by
    have hmem := mem_of_lookup hid
    change b.exported.filter _ = (b.registrations.filter _).map Prod.swap
    rw [h.exported, List.filter_map]
    refine congrArg (List.map Prod.swap) (List.filter_congr fun e he => ?_)
    -- Both the keys and the identifiers tell the registrations apart.
    have hiff : e.2 = identifier ↔ e.1 = (path, interfaceOf path) := by
      constructor
      · intro heq
        rw [List.inj_on_of_nodup_map h.identifiers he hmem heq]
      · intro heq
        rw [List.inj_on_of_nodup_map h.registered he hmem heq]
    simp [hiff]
  pairs := by
    intro pair
    change pair ∈ (b.registrations.filter _).map Prod.fst ↔
      _ ∨ pair.1 ∈ (b.objects.filter _).map Prod.fst ∧ _
    rw [mem_keys_drop, mem_keys_drop, h.pairs pair]
    constructor
    · rintro ⟨hmanager | ⟨hpath, hinterface⟩, hne⟩
      · exact .inl hmanager
      · refine .inr ⟨⟨hpath, fun heq => hne ?_⟩, hinterface⟩
        exact Prod.ext heq (by rw [hinterface, heq])
    · rintro (hmanager | ⟨⟨hpath, hne⟩, hinterface⟩)
      · refine ⟨.inl hmanager, fun heq => interfaceOf_ne_manager path ?_⟩
        rw [hmanager] at heq
        exact (Prod.ext_iff.mp heq).2.symm
      · exact ⟨.inr ⟨hpath, hinterface⟩, fun heq => hne (by rw [heq])⟩

/-- Removing an object tells every client that it is gone. -/
theorem remove_mirrors (h : Sound b) (hpath : path ∈ b.objects.map Prod.fst) :
    Mirrors b (b.remove path) ∧
      (b.remove path).bridge.objects = b.objects.filter (·.1 ≠ path) := by
  obtain ⟨interfaces, hl⟩ := Option.isSome_iff_exists.mp (lookup_isSome_iff.mpr hpath)
  obtain ⟨props, rfl, -⟩ := h.lookup hl
  have hreg := (h.pairs (path, interfaceOf path)).mpr (.inr ⟨hpath, rfl⟩)
  obtain ⟨identifier, hid⟩ := Option.isSome_iff_exists.mp (lookup_isSome_iff.mpr hreg)
  have heq : b.remove path =
      ⟨{ b with
          objects := b.objects.filter (·.1 ≠ path)
          registrations := b.registrations.filter (·.1 ≠ (path, interfaceOf path))
          exported := b.exported.filter (·.1 ≠ identifier) },
        [.signal (.interfacesRemoved path [interfaceOf path])], none⟩ := by
    simp only [Bridge.remove, hl, List.map_cons, List.map_nil, Called.andThen, each,
      Bridge.unregister, hid, List.append_nil]
  rw [heq]
  refine ⟨⟨rfl, h.drop hid, ?_⟩, rfl⟩
  have hrest : ([(interfaceOf path, props)] : Interfaces).filter (·.1 ∉ [interfaceOf path]) = [] := by
    simp
  have hfollow : follow b.objects [.signal (.interfacesRemoved path [interfaceOf path])] =
      b.objects.filter (·.1 ≠ path) := by
    change apply b.objects (.interfacesRemoved path [interfaceOf path]) = _
    simp only [apply, hl, Option.getD_some, hrest, if_true]
  rw [hfollow]

/-- The first loop of `update`. -/
theorem removes_mirror {paths : List String} (h : Sound b) (hnodup : paths.Nodup)
    (hpaths : ∀ path ∈ paths, path ∈ b.objects.map Prod.fst) :
    Mirrors b (each Bridge.remove paths b) := by
  induction paths generalizing b with
  | nil => exact .refl h
  | cons path paths ih =>
      obtain ⟨hm, hobjects⟩ := remove_mirrors h (hpaths path List.mem_cons_self)
      obtain ⟨hpath, hnodup⟩ := List.nodup_cons.mp hnodup
      refine hm.andThen (ih hm.sound hnodup fun other hother => ?_)
      rw [hobjects, mem_keys_drop]
      exact ⟨hpaths other (List.mem_cons_of_mem _ hother), fun heq => hpath (heq ▸ hother)⟩

/-! ### A path comes or stays -/

/-- An object is added with its registration. -/
theorem Sound.add (h : Sound b) (hnew : b.objects.lookup path = none) {interfaces : Interfaces}
    (hs : Shaped path interfaces) :
    Sound ({ b with objects := put b.objects path interfaces : Bridge }.register path
      (interfaceOf path)) := by
  have hpath : path ∉ b.objects.map Prod.fst := by
    rw [← lookup_isSome_iff, hnew]
    simp
  -- What is registered is the manager and the tree, and the path is in neither.
  have hkey : (path, interfaceOf path) ∉ b.registrations.map Prod.fst := by
    rw [h.pairs]
    rintro (heq | ⟨hmem, -⟩)
    · exact interfaceOf_ne_manager path (Prod.ext_iff.mp heq).2
    · exact hpath hmem
  have hput : put b.registrations (path, interfaceOf path) b.identifier =
      b.registrations ++ [((path, interfaceOf path), b.identifier)] := by
    rw [put, if_neg fun hsome => hkey (lookup_isSome_iff.mp hsome)]
  exact {
    distinct := h.distinct.put path interfaces
    shaped := by
      intro e he
      rcases mem_put he with he | rfl
      · exact h.shaped e he
      · exact hs
    registered := h.registered.put _ _
    identifiers := by
      change ((put b.registrations _ _).map Prod.snd).Nodup
      rw [hput, List.map_append]
      refine List.nodup_append.mpr ⟨h.identifiers, List.nodup_singleton _, ?_⟩
      rintro a ha c hc rfl
      obtain ⟨e, he, rfl⟩ := List.mem_map.mp ha
      have hlt := h.below e he
      have heq : e.2 = b.identifier := List.mem_singleton.mp hc
      omega
    below := by
      intro e he
      change e.2 < b.identifier + 1
      rcases mem_put he with he | rfl
      · exact Nat.lt_succ_of_lt (h.below e he)
      · exact Nat.lt_succ_self _
    exported := by
      change b.exported ++ _ = (put b.registrations _ _).map Prod.swap
      rw [hput, List.map_append, h.exported]
      rfl
    pairs := by
      intro pair
      change pair ∈ (put b.registrations _ _).map Prod.fst ↔
        _ ∨ pair.1 ∈ (put b.objects path interfaces).map Prod.fst ∧ _
      rw [mem_keys_put, mem_keys_put, h.pairs]
      constructor
      · rintro (rfl | hmanager | ⟨hmem, hinterface⟩)
        · exact .inr ⟨.inl rfl, rfl⟩
        · exact .inl hmanager
        · exact .inr ⟨.inr hmem, hinterface⟩
      · rintro (hmanager | ⟨hp | hmem, hinterface⟩)
        · exact .inr (.inl hmanager)
        · exact .inl (Prod.ext hp (by rw [hinterface, hp]))
        · exact .inr (.inr ⟨hmem, hinterface⟩) }

/-- The properties of an object are replaced by ones of the same names. -/
theorem Sound.alter (h : Sound b) (f : Interfaces → Interfaces)
    (hf : ∀ interfaces, (path, interfaces) ∈ b.objects → Shaped path (f interfaces)) :
    Sound { b with objects := b.objects.map fun e => if e.1 = path then (e.1, f e.2) else e } := by
  have hkeys := map_fst_map_at b.objects path f
  exact {
    distinct := by
      change (List.map Prod.fst (b.objects.map _)).Nodup
      rw [hkeys]
      exact h.distinct
    shaped := by
      intro e he
      obtain ⟨e₀, he₀, rfl⟩ := List.mem_map.mp he
      by_cases hp : e₀.1 = path
      · subst hp
        simpa using hf e₀.2 he₀
      · simpa [hp] using h.shaped e₀ he₀
    registered := h.registered
    identifiers := h.identifiers
    below := h.below
    exported := h.exported
    pairs := by
      intro pair
      change _ ↔ _ ∨ pair.1 ∈ (b.objects.map _).map Prod.fst ∧ _
      rw [hkeys]
      exact h.pairs pair }

/-- One interface shows its properties, in whatever order they stand. -/
theorem viewInterfaces_single {interface : String} {props props' : Properties}
    (h : ∀ key, props.lookup key = props'.lookup key) :
    viewInterfaces [(interface, props)] = viewInterfaces [(interface, props')] := by
  funext other
  simp only [viewInterfaces, List.lookup_cons, List.lookup_nil]
  cases other == interface
  · rfl
  · simp only [Option.map_some, h]

/-- Announcing the properties of an object tells the client what differs. -/
theorem change_mirrors (h : Sound b) {props : Properties}
    (hpath : path ∈ b.objects.map Prod.fst) (hprops : props.map Prod.fst = keysOf path) :
    Mirrors b (b.change path (interfaceOf path) props) := by
  obtain ⟨interfaces, hl⟩ := Option.isSome_iff_exists.mp (lookup_isSome_iff.mpr hpath)
  obtain ⟨old, rfl, hold⟩ := h.lookup hl
  have hput : put [(interfaceOf path, old)] (interfaceOf path) props = [(interfaceOf path, props)] := by
    simp [put]
  have hsound : Sound { b with
      objects := b.objects.map fun e =>
        if e.1 = path then (e.1, put e.2 (interfaceOf path) props) else e } := by
    refine h.alter (fun interfaces => put interfaces (interfaceOf path) props) fun interfaces hmem => ?_
    obtain ⟨old', rfl, -⟩ : Shaped path interfaces := h.shaped _ hmem
    exact ⟨props, by simp [put], hprops⟩
  -- The names are the same, so the changes say everything.
  have hsame : ∀ key, ((changes old props).lookup key).or (old.lookup key) = props.lookup key := by
    refine lookup_overlay_changes ?_ fun key hkey => ?_
    · rw [DistinctKeys, hprops]
      exact keysOf_nodup path
    · rw [lookup_isSome_iff, hprops, ← hold]
      exact lookup_isSome_iff.mp hkey
  have heq : b.change path (interfaceOf path) props =
      ⟨{ b with
          objects := b.objects.map fun e =>
            if e.1 = path then (e.1, put e.2 (interfaceOf path) props) else e },
        if changes old props = [] then []
        else [.signal (.propertiesChanged path (interfaceOf path) (changes old props) [])], none⟩ := by
    simp [Bridge.change, hl]
  rw [heq]
  refine ⟨rfl, hsound, funext fun other => ?_⟩
  change _ = view (b.objects.map fun e =>
    if e.1 = path then (e.1, put e.2 (interfaceOf path) props) else e) other
  rw [view_at fun interfaces => put interfaces (interfaceOf path) props, hl, Option.map_some, hput]
  by_cases hc : changes old props = []
  · simp only [hc, if_true]
    change view b.objects other = _
    by_cases ho : other = path
    · rw [if_pos ho, ho, view, hl, Option.map_some, viewInterfaces_single fun key => ?_]
      simpa [hc] using hsame key
    · rw [if_neg ho]
  · simp only [hc, if_false]
    change view (apply b.objects (.propertiesChanged _ _ _ _)) other = _
    simp only [apply]
    rw [view_at, hl, Option.map_some]
    by_cases ho : other = path
    · rw [if_pos ho, if_pos ho]
      simp only [List.map_cons, List.map_nil, if_true]
      rw [viewInterfaces_single fun key => ?_]
      rw [lookup_overlay]
      simpa using hsame key
    · rw [if_neg ho, if_neg ho]

/-- Placing an object tells the client of it, whether it is new or was there before. -/
theorem place_mirrors (h : Sound b) {entry : String × Interfaces} (hs : Shaped entry.1 entry.2) :
    Mirrors b (b.place entry) := by
  obtain ⟨path, interfaces⟩ := entry
  obtain ⟨props, rfl, hprops⟩ : Shaped path interfaces := hs
  cases hl : b.objects.lookup path with
  | none =>
      have heq : b.place (path, [(interfaceOf path, props)]) =
          ⟨({ b with objects := put b.objects path [(interfaceOf path, props)] : Bridge }).register path
            (interfaceOf path),
            [.signal (.interfacesAdded path [(interfaceOf path, props)])], none⟩ := by
        simp [Bridge.place, hl]
      rw [heq]
      refine ⟨rfl, h.add hl ⟨props, rfl, hprops⟩, ?_⟩
      change view (apply b.objects (.interfacesAdded _ _)) = view (put b.objects path _)
      simp [apply, hl, overlay]
  | some interfaces =>
      have heq : b.place (path, [(interfaceOf path, props)]) =
          (b.change path (interfaceOf path) props).andThen fun b => ⟨b, [], none⟩ := by
        simp only [Bridge.place, hl, each]
      rw [heq]
      have hpath : path ∈ b.objects.map Prod.fst := lookup_isSome_iff.mp (by simp [hl])
      have hm := change_mirrors h hpath hprops
      exact hm.andThen (.refl hm.sound)

/-- The second loop of `update`. -/
theorem places_mirror {current : Objects} (h : Sound b) (hs : ∀ e ∈ current, Shaped e.1 e.2) :
    Mirrors b (each Bridge.place current b) := by
  induction current generalizing b with
  | nil => exact .refl h
  | cons entry current ih =>
      have hm := place_mirrors h (hs entry List.mem_cons_self)
      exact hm.andThen (ih hm.sound fun e he => hs e (List.mem_cons_of_mem _ he))

/-- **What is published is mirrored.** -/
theorem publish_mirrors {current : Objects} (h : Sound b) (hs : ∀ e ∈ current, Shaped e.1 e.2)
    (order : List String) : Mirrors b (b.publish current order) := by
  have hpaths : ((b.objects.map Prod.fst).filter fun path => (current.lookup path).isNone).Perm
      (b.vanished current order) := by
    rw [Bridge.vanished]
    split
    · rename_i hp
      exact (List.isPerm_iff.mp hp).symm
    · rfl
  have hm := removes_mirror h (hpaths.nodup (h.distinct.filter _)) fun path hmem =>
    List.mem_of_mem_filter (hpaths.mem_iff.mpr hmem)
  exact hm.andThen (places_mirror hm.sound hs)

/-! ### The calls -/

/-- The object of the adapter has the interface of an adapter. -/
theorem adapterPath_interface : interfaceOf adapterPath = adapterInterface := by decide

/-- Discovery is one of the adapter's properties. -/
theorem discovering_mem : "Discovering" ∈ keysOf adapterPath := by decide

/-- **The change of the adapter in place is mirrored.** -/
theorem discoveryChanged_mirrors (h : Sound b) :
    Mirrors b ⟨b.discoveryChanged.2, b.discoveryChanged.1, none⟩ := by
  have hframe : Sound
      (if b.discovery = [] then { b with events := b.events.removeSource .discovery } else b) := by
    split
    · exact h.frame rfl rfl rfl rfl
    · exact h
  have hobjects :
      (if b.discovery = [] then { b with events := b.events.removeSource .discovery }
        else b).objects = b.objects := by
    split <;> rfl
  rw [Bridge.discoveryChanged]
  generalize (if b.discovery = [] then
    { b with events := b.events.removeSource .discovery } else b) = b₁ at hframe hobjects ⊢
  split
  · refine ⟨rfl, ?_, funext fun other => ?_⟩
    · refine hframe.alter (fun interfaces => interfaces.map fun e =>
        if e.1 = adapterInterface then (e.1, put e.2 "Discovering" _) else e) fun interfaces hmem => ?_
      obtain ⟨props, rfl, hprops⟩ : Shaped adapterPath interfaces := hframe.shaped _ hmem
      refine ⟨put props "Discovering" (.boolean (b₁.discovery ≠ [])), ?_, ?_⟩
      · simp [adapterPath_interface]
      · rw [keys_put_of_mem (hprops ▸ discovering_mem), hprops]
    · change view (apply b.objects (.propertiesChanged _ _ _ _)) other = view (b₁.objects.map _) other
      simp only [apply]
      rw [hobjects, view_at, view_at]
      split
      · refine congrArg (fun f => Option.map f (b.objects.lookup adapterPath)) ?_
        funext interfaces interface
        rw [viewInterfaces_at interfaces adapterInterface fun props =>
            overlay (props.filter (·.1 ∉ [])) _,
          viewInterfaces_at interfaces adapterInterface fun props => put props "Discovering" _]
        split
        · refine congrArg (fun f => Option.map f (interfaces.lookup adapterInterface)) ?_
          funext props key
          rw [lookup_overlay, lookup_put, List.lookup_cons, List.lookup_nil]
          by_cases hk : key = "Discovering"
          · simp [hk]
          · have hne : (key == "Discovering") = false := by simpa using hk
            simp [hk, hne]
        · rfl
      · rfl
  · refine ⟨rfl, hframe, ?_⟩
    change view b.objects = view b₁.objects
    rw [hobjects]

/-- A call that a client can follow can start from any bridge with that tree. -/
theorem Mirrors.of_frame {b' : Bridge} {c : Called} (h : Mirrors b' c)
    (ho : b'.objects = b.objects) : Mirrors b c :=
  ⟨h.raised, h.sound, ho ▸ h.follows⟩

/-- A client that stops discovery leaves the tree as the others know it. -/
theorem stopDiscovery_mirrors (h : Sound b) (sender : String) :
    Mirrors b ⟨(b.stopDiscovery sender).2, (b.stopDiscovery sender).1, none⟩ :=
  (discoveryChanged_mirrors (b := { b with discovery := b.discovery.filter (· ≠ sender) })
    (h.frame rfl rfl rfl rfl)).of_frame rfl

/-- The call raised before it touched the tree. -/
structure Untouched (b : Bridge) (c : Called) : Prop where
  silent : signals c.effects = []
  objects : c.bridge.objects = b.objects
  registrations : c.bridge.registrations = b.registrations
  exported : c.bridge.exported = b.exported
  identifier : c.bridge.identifier = b.identifier

/-- **An update is mirrored, or raised before it touched the tree.** -/
theorem update_mirrors (h : Sound b) (state : Object) (order : List String) :
    Mirrors b (b.update state order) ∨
      (b.update state order).raised ≠ none ∧ Untouched b (b.update state order) := by
  rw [Bridge.update]
  cases Bridge.radioOf state with
  | error e => exact .inr ⟨nofun, rfl, rfl, rfl, rfl, rfl⟩
  | ok radio =>
      have hsound : Sound { b with radioState := radio, radioKey := b.events.key } :=
        h.frame rfl rfl rfl rfl
      simp only []
      cases hc : Bridge.current { b with radioState := radio, radioKey := b.events.key } state with
      | error e => exact .inr ⟨nofun, rfl, rfl, rfl, rfl, rfl⟩
      | ok current =>
          have hfirst : Mirrors b
              ⟨{ b with radioState := radio, radioKey := b.events.key }, [.radio radio], none⟩ :=
            ⟨rfl, hsound, rfl⟩
          exact .inl (hfirst.andThen (publish_mirrors hsound (current_shaped hc) order))

end Steps

/-! ### Runs -/

/-- The calls that touch the tree. -/
inductive Call where
  | update (state : Object) (order : List String)
  | discoveryChanged
  | startDiscovery (sender : String)
  | stopDiscovery (sender : String)
  | ownerChanged (name newOwner : String)

/-- A call that raises nothing. -/
def Called.returned (c : List Effect × Bridge) : Called := ⟨c.2, c.1, none⟩

def Bridge.call (b : Bridge) : Call → Called
  | .update state order => b.update state order
  | .discoveryChanged => .returned b.discoveryChanged
  | .startDiscovery sender => .returned (b.startDiscovery sender)
  | .stopDiscovery sender => .returned (b.stopDiscovery sender)
  | .ownerChanged name newOwner => .returned (b.ownerChanged name newOwner)

/-- A run of calls, with the effects of each and what it raised. -/
abbrev Calls : Bridge → List (Call × (List Effect × Option Raised)) → Bridge → Prop :=
  Steps fun b call out b' => b.call call = ⟨b', out.1, out.2⟩

/-- The effects of the calls. -/
def effectsOf (t : List (Call × (List Effect × Option Raised))) : List Effect :=
  t.flatMap fun e => e.2.1

/-- Every call can be followed, or it raises before it touches the tree. -/
theorem call_mirrors {b : Bridge} (h : Sound b) (call : Call) :
    Mirrors b (b.call call) ∨ (b.call call).raised ≠ none ∧ Untouched b (b.call call) := by
  cases call with
  | update state order => exact update_mirrors h state order
  | discoveryChanged => exact .inl (discoveryChanged_mirrors h)
  | startDiscovery sender =>
      have hframe : Sound { b with
          discovery := if sender ∈ b.discovery then b.discovery else sender :: b.discovery } :=
        h.frame rfl rfl rfl rfl
      exact .inl ((discoveryChanged_mirrors hframe).of_frame rfl)
  | stopDiscovery sender => exact .inl (stopDiscovery_mirrors h sender)
  | ownerChanged name newOwner =>
      simp only [Bridge.call, Bridge.ownerChanged]
      split
      · exact .inl (stopDiscovery_mirrors h name)
      · exact .inl (.refl h)

/-- Every call keeps the bridge sound. -/
theorem call_sound {b : Bridge} (h : Sound b) (call : Call) : Sound (b.call call).bridge := by
  rcases call_mirrors h call with hm | ⟨-, hu⟩
  · exact hm.sound
  · exact h.frame hu.objects hu.registrations hu.exported hu.identifier

/-- After every call a client that had the tree has the tree. -/
theorem call_follows {b : Bridge} (h : Sound b) (call : Call) :
    view (follow b.objects (b.call call).effects) = view (b.call call).bridge.objects := by
  rcases call_mirrors h call with hm | ⟨-, hu⟩
  · exact hm.follows
  · rw [follow, hu.silent, hu.objects]
    rfl

/-- A call is a sequence of calls. -/
theorem Calls.one (b : Bridge) (call : Call) :
    Calls b [(call, (b.call call).effects, (b.call call).raised)] (b.call call).bridge :=
  .more rfl (.refl _)

/-- A sequence of calls keeps the bridge sound. -/
theorem Calls.sound {b b' : Bridge} {t} (h : Calls b t b') (hs : Sound b) : Sound b' :=
  h.invariant (fun {b call out b'} hs heq => by
    have hc := call_sound hs call
    rw [heq] at hc
    exact hc) hs

/-- After a sequence of calls a client that had the tree has the tree. -/
theorem Calls.follows {b b' : Bridge} {t} (h : Calls b t b') (hs : Sound b) :
    view (follow b.objects (effectsOf t)) = view b'.objects := by
  induction h with
  | refl => rfl
  | @more b b₁ b' call out t hcall _ ih =>
      have hc := call_sound hs call
      have hf := call_follows hs call
      rw [hcall] at hc hf
      rw [effectsOf, List.flatMap_cons, follow_append, follow_congr hf]
      exact ih hc

/-- **The tree is mirrored by its signals.**  A client that gets the tree `m.objects` from
`GetManagedObjects` at any point and follows the signals since then has the bridge's tree after each
call.  What is registered, by the bridge and on the bus, is the manager and the pairs of the tree.
A call that raises emits no signal and leaves the tree and the registrations as they are. -/
theorem signals_mirror {m b : Bridge} {t u} (ht : Calls .new t m) (hu : Calls m u b) :
    view (follow m.objects (effectsOf u)) = view b.objects ∧
      (∀ path interface, (path, interface) ∈ b.registrations.map Prod.fst ↔
        (path, interface) = ("/", managerInterface) ∨
          ∃ interfaces, b.objects.lookup path = some interfaces ∧
            interface ∈ interfaces.map Prod.fst) ∧
      b.exported = b.registrations.map Prod.swap ∧
      ∀ call, (b.call call).raised ≠ none →
        signals (b.call call).effects = [] ∧ (b.call call).bridge.objects = b.objects ∧
          (b.call call).bridge.registrations = b.registrations ∧
          (b.call call).bridge.exported = b.exported := by
  have hm := ht.sound new_sound
  have hb := hu.sound hm
  refine ⟨hu.follows hm, fun path interface => ?_, hb.exported, fun call hraised => ?_⟩
  · rw [hb.pairs (path, interface)]
    refine or_congr_right ⟨fun ⟨hpath, hinterface⟩ => ?_, fun ⟨interfaces, hl, hmem⟩ => ?_⟩
    · obtain ⟨interfaces, hl⟩ := Option.isSome_iff_exists.mp (lookup_isSome_iff.mpr hpath)
      obtain ⟨props, rfl, -⟩ := hb.lookup hl
      exact ⟨_, hl, by simp [show interface = _ from hinterface]⟩
    · obtain ⟨props, rfl, -⟩ := hb.lookup hl
      exact ⟨lookup_isSome_iff.mp (by simp [hl]), by simpa using hmem⟩
  · rcases call_mirrors hb call with hmirror | ⟨-, hu⟩
    · exact absurd hmirror.raised hraised
    · exact ⟨hu.silent, hu.objects, hu.registrations, hu.exported⟩

/-- A record of the host's. -/
def sampleRecord (address : String) (connected : Bool) : Json :=
  .obj [("address", .str address), ("classOfDevice", .int 0x2580), ("name", .str "Test input"),
    ("paired", .bool true), ("connected", .bool connected)]

def sampleState (records : List Json) : Object :=
  [("ok", .bool true), ("powered", .bool true), ("devices", .arr records)]

/-- Two devices are there. -/
def sampleFirst : Call :=
  .update (sampleState
    [sampleRecord "02-00-00-00-00-0a" false, sampleRecord "02-00-00-00-00-0b" false]) []

def sampleBridge : Bridge := (Bridge.new.call sampleFirst).bridge

/-- One of them goes, and the other one is connected. -/
def sampleCall : Call := .update (sampleState [sampleRecord "02-00-00-00-00-0a" true]) []

/-- The sample update removes one device, connects the other, and is followed. -/
theorem signals_mirror_sample :
    signals (sampleBridge.call sampleCall).effects =
        [.interfacesRemoved "/org/bluez/hci0/dev_02_00_00_00_00_0B" [deviceInterface],
          .propertiesChanged "/org/bluez/hci0/dev_02_00_00_00_00_0A" deviceInterface
            [("Connected", .boolean true)] []] ∧
      view (follow sampleBridge.objects
          (effectsOf [(sampleCall, (sampleBridge.call sampleCall).effects,
            (sampleBridge.call sampleCall).raised)])) =
        view (sampleBridge.call sampleCall).bridge.objects :=
  ⟨by decide +kernel,
    (signals_mirror (Calls.one .new sampleFirst) (Calls.one sampleBridge sampleCall)).1⟩

end Ashacky.Devices.Bluetooth
