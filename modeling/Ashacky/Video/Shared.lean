import Ashacky.Support.Bytes
import Ashacky.Support.Machine

/-!
# Video — shared frames

Decoded VP9 frames reach the guest through a map of 64 MiB that is cut into four slots.  On the host
`CodecShared.swift` hands each connection a slot of its own and writes the connection's frames there;
the reply to a packet is a descriptor of what was written.  In the guest the descriptor passes the
checks of `decoder-worker.c` (`client`), which sends it on or copies the frame, and those of the VA
driver (`rpc`), which copies the frame to a surface.

The accept loop, the connections it serves and the slots they give back take steps in any order.
What VideoToolbox does is an argument of the step.  A message is four words; the host's `Int` and
the guest's `size_t` are numbers, the latter modulo `2 ^ 64`.

* `Decoder.decode_writes`: what decoding writes, and the size it returns.
* `inSlot_of_checks`, `passes_reply`: what the checks of the guest mean, and that the service's
  descriptors pass them.
* `Service.Owned`: each slot is free or held by one connection.
* `Service.frames_in_slot`: the above, over every run.
-/

namespace Ashacky.Video
open Ashacky.Support

/-- A header (an operation or a status, two arguments and a length), or a descriptor. -/
structure Words where
  w0 : UInt32
  w1 : UInt32
  w2 : UInt32
  w3 : UInt32
  deriving DecidableEq

def slotSize : Nat := 16 * 1024 * 1024

/-! ### The decoder -/

/-- A plane of a picture: its rows are `stride` bytes apart. -/
structure Plane where
  base : Option (Nat → UInt8)
  stride : Nat

/-- What decoding a packet leaves in `Result`. -/
inductive Picture where
  | failed
  | none
  | image (width height : Nat) (planes : List Plane)

structure Decoder where
  /-- There is a session, and a format. -/
  session : Bool
  width : Nat
  height : Nat
  depth : Nat
  deriving DecidableEq

/-- A `memcpy` to the map. -/
structure Write where
  address : Nat
  bytes : Data
  deriving DecidableEq

namespace Decoder

def initial : Decoder := ⟨false, 0, 0, 8⟩

/-- `configure`, and whether it returns.  `created` is that VideoToolbox decodes in hardware and
creates the session. -/
def configure (w h : Nat) (config : Data) (created : Bool) (d : Decoder) : Decoder × Bool :=
  if d.session = false ∧ 0 < w ∧ 0 < h ∧ w ≤ 4096 ∧ h ≤ 4096 ∧ w % 2 = 0 ∧ h % 2 = 0 ∧
      config.length = 12 then
    let depth := (config.getD 6 0 >>> 4).toNat
    if (config.getD 4 0 = 0 ∧ depth = 8 ∨ config.getD 4 0 = 2 ∧ depth = 10) ∧ created then
      (⟨true, w, h, depth⟩, true)
    else (⟨false, w, h, depth⟩, false)
  else (d, false)

/-- The bytes of a sample. -/
def sample (d : Decoder) : Nat := if d.depth = 8 then 1 else 2

def outputSize (d : Decoder) : Nat := d.width * d.height * 3 / 2 * d.sample

/-- The first rows of a plane, one after the other, and the offset after them. -/
def copyRows (destination stride bytes : Nat) (p : Nat → UInt8) (offset : Nat) :
    Nat → List Write × Nat
  | 0 => ([], offset)
  | y + 1 =>
      let (writes, offset) := copyRows destination stride bytes p offset y
      (writes ++ [⟨destination + offset, (List.range bytes).map fun i => p (y * stride + i)⟩],
        offset + bytes)

/-- One plane, unless it is missing or its rows are too short. -/
def copyPlane (d : Decoder) (destination : Nat) (plane : Plane) (offset rows : Nat) :
    Option (List Write × Nat) :=
  match plane.base with
  | some p =>
      if d.width * d.sample ≤ plane.stride then
        some (copyRows destination plane.stride (d.width * d.sample) p offset rows)
      else none
  | none => none

/-- `decode`: what it writes, and the number of bytes it returns unless it throws. -/
def decode (picture : Picture) (destination : Nat) (d : Decoder) : List Write × Option Nat :=
  if d.session then
    match picture with
    | .failed => ([], none)
    | .none => ([], some 0)
    | .image width height planes =>
        match planes with
        | [luma, chroma] =>
            if width = d.width ∧ height = d.height ∧ d.outputSize ≤ slotSize then
              match d.copyPlane destination luma 0 d.height with
              | some (writes, offset) =>
                  match d.copyPlane destination chroma offset (d.height / 2) with
                  | some (writes', _) => (writes ++ writes', some d.outputSize)
                  | none => (writes, none)
              | none => ([], none)
            else ([], none)
        | _ => ([], none)
  else ([], none)

end Decoder

/-! ### The service -/

/-- A connection that holds a slot: it is served, or `serve` returned and the slot is not back
yet. -/
structure Connection where
  slot : Nat
  decoder : Decoder
  serving : Bool
  deriving DecidableEq

/-- What VideoToolbox does with a packet: it creates a session, or decodes a picture. -/
structure Toolbox where
  created : Bool
  picture : Picture

/-- A reply: its header, and the descriptor after it. -/
structure Reply where
  header : Words
  descriptor : Option Words
  deriving DecidableEq

structure Service where
  freeSlots : List Nat
  connections : List Connection
  /-- The bytes of the map. -/
  shared : Nat → UInt8

inductive Event where
  | accept
  /-- A packet of the n-th connection; `delivered` is that its reply is written. -/
  | packet (n : Nat) (header : Words) (payload : Data) (toolbox : Toolbox) (delivered : Bool)
  /-- The n-th connection has no further packet. -/
  | finish (n : Nat)
  /-- The n-th connection gives its slot back. -/
  | release (n : Nat)

/-- What a step writes to the map and to the connection. -/
structure Output where
  writes : List Write
  reply : Option Reply
  deriving DecidableEq

def Output.silent : Output := ⟨[], none⟩

/-- The map after a `memcpy`. -/
def Write.apply (shared : Nat → UInt8) (w : Write) : Nat → UInt8 := fun a =>
  if w.address ≤ a ∧ a < w.address + w.bytes.length then w.bytes.getD (a - w.address) 0
  else shared a

/-- The reply to what throws. -/
def refusal : Reply := ⟨⟨UInt32.ofNat (2 ^ 32 - 1), 0, 0, 0⟩, none⟩

namespace Connection

/-- The body of `serve`'s loop. -/
def packet (a : Words) (payload : Data) (T : Toolbox) (delivered : Bool) (c : Connection) :
    Output × Connection :=
  if a.w3 ≤ 16 * 1024 * 1024 then
    if a.w0 = 3 then
      let (decoder, configured) := c.decoder.configure a.w1.toNat a.w2.toNat payload T.created
      if configured then
        (⟨[], some ⟨⟨0, 0, 0, 0⟩, none⟩⟩, { c with decoder := decoder, serving := delivered })
      else (⟨[], some refusal⟩, { c with decoder := decoder, serving := false })
    else if a.w0 = 2 then
      match c.decoder.decode T.picture (c.slot * slotSize) with
      | (writes, some bytes) =>
          (⟨writes, some ⟨⟨2, .ofNat c.decoder.width, .ofNat c.decoder.height, 16⟩,
            some ⟨.ofNat (c.slot * slotSize), 0, .ofNat bytes, a.w1⟩⟩⟩,
            { c with serving := delivered })
      | (writes, none) => (⟨writes, some refusal⟩, { c with serving := false })
    else (⟨[], some refusal⟩, { c with serving := false })
  else (.silent, { c with serving := false })

end Connection

namespace Service

def initial (shared : Nat → UInt8) : Service := ⟨[0, 1, 2, 3], [], shared⟩

def step (s : Service) : Event → Option (Output × Service)
  | .accept =>
      match s.freeSlots.getLast? with
      | none => some (.silent, s)
      | some slot =>
          some (.silent, { s with
            freeSlots := s.freeSlots.dropLast
            connections := s.connections ++ [⟨slot, .initial, true⟩] })
  | .packet n a payload T delivered =>
      match s.connections[n]? with
      | some c =>
          if c.serving ∧ (a.w3 ≤ 16 * 1024 * 1024 → payload.length = a.w3.toNat) then
            let (output, c') := c.packet a payload T delivered
            some (output, { s with
              connections := s.connections.set n c'
              shared := output.writes.foldl Write.apply s.shared })
          else none
      | none => none
  | .finish n =>
      match s.connections[n]? with
      | some c =>
          if c.serving then
            some (.silent, { s with connections := s.connections.set n { c with serving := false } })
          else none
      | none => none
  | .release n =>
      match s.connections[n]? with
      | some c =>
          if c.serving then none
          else
            some (.silent, { s with
              freeSlots := s.freeSlots ++ [c.slot]
              connections := s.connections.eraseIdx n })
      | none => none

end Service

/-! ### The guest -/

/-- `(size_t)r[1]*r[2]*3/2`. -/
def expected (r : Words) : Nat := r.w1.toNat * r.w2.toNat % 2 ^ 64 * 3 % 2 ^ 64 / 2

/-- What `client` sends to the driver for a descriptor. -/
inductive Relayed where
  | descriptor (r desc : Words)
  /-- Bytes of the map, behind the header. -/
  | frame (r : Words) (address length : Nat)
  deriving DecidableEq

/-- `client`, on a reply with status 2 to the header `h`. -/
def client (shared direct : Bool) (h r desc : Words) : Option Relayed :=
  if shared = false ∨ r.w3 ≠ 16 ∨ desc.w1 ≠ 0 ∨ desc.w0 % (16 * 1024 * 1024) ≠ 0 ∨
      desc.w0 > 48 * 1024 * 1024 ∨ desc.w2 > 16 * 1024 * 1024 ∨ desc.w3 ≠ h.w1 ∨ r.w1 > 4096 ∨
      r.w2 > 4096 ∨ desc.w2 ≠ 0 ∧ desc.w2.toNat ≠ expected r ∧ desc.w2.toNat ≠ expected r * 2 % 2 ^ 64 then none
  else if direct then some (.descriptor r desc)
  else some (.frame ⟨0, r.w1, r.w2, desc.w2⟩ desc.w0.toNat desc.w2.toNat)

/-- The number of bytes `rpc` copies to the surface, from the map or from the socket. -/
inductive Copied where
  | shared (address length : Nat)
  | socket (length : Nat)
  deriving DecidableEq

/-- `(size_t)t->width*t->height*3/2*t->bytes`. -/
def capacity (width height bytes : Nat) : Nat :=
  width * height % 2 ^ 64 * 3 % 2 ^ 64 / 2 * bytes % 2 ^ 64

/-- `rpc`, on a reply `r` and the descriptor after it, with the surface's capacity. -/
def rpc (op a : UInt32) (cap : Nat) (shared : Bool) (r desc : Words) : Option Copied :=
  if r.w0 = 2 then
    if op ≠ 2 ∨ shared = false ∨ r.w3 ≠ 16 ∨ desc.w1 ≠ 0 ∨ desc.w0 % (16 * 1024 * 1024) ≠ 0 ∨
        desc.w0 > 48 * 1024 * 1024 ∨ desc.w2 > 16 * 1024 * 1024 ∨ desc.w2.toNat > cap ∨
        desc.w3 ≠ a then none
    else some (.shared desc.w0.toNat desc.w2.toNat)
  else if r.w0 ≠ 0 ∨ r.w3.toNat > cap then none
  else some (.socket r.w3.toNat)

/-! ### What is written -/

/-- Rows one after the other fill a range. -/
structure Fills (start stop : Nat) (writes : List Write) : Prop where
  inside : ∀ w ∈ writes, start ≤ w.address ∧ w.address + w.bytes.length ≤ stop
  total : (writes.map fun w => w.bytes.length).sum = stop - start

theorem Fills.nil (start : Nat) : Fills start start [] where
  inside := by simp
  total := by simp

theorem fills_nil (start : Nat) : ∃ n, n ≤ slotSize ∧ Fills start (start + n) [] :=
  ⟨0, Nat.zero_le _, Fills.nil start⟩

/-- Writes that fill two ranges in a row fill both. -/
theorem Fills.append {start middle stop : Nat} {ws vs : List Write} (h : Fills start middle ws)
    (h' : Fills middle stop vs) (hle : start ≤ middle) (hle' : middle ≤ stop) :
    Fills start stop (ws ++ vs) where
  inside w hw := by
    rcases List.mem_append.mp hw with hw | hw
    · have := h.inside w hw
      omega
    · have := h'.inside w hw
      omega
  total := by
    rw [List.map_append, List.sum_append, h.total, h'.total]
    omega

/-- One write fills the range of its bytes. -/
theorem fills_singleton (address : Nat) (bytes : Data) :
    Fills address (address + bytes.length) [⟨address, bytes⟩] where
  inside := by simp
  total := by simp

/-- What is outside the range keeps its value. -/
theorem Fills.frame {start stop : Nat} {writes : List Write} (h : Fills start stop writes)
    (shared : Nat → UInt8) {a : Nat} (ha : a < start ∨ stop ≤ a) :
    writes.foldl Write.apply shared a = shared a := by
  have key : ∀ (ws : List Write) (m : Nat → UInt8),
      (∀ w ∈ ws, start ≤ w.address ∧ w.address + w.bytes.length ≤ stop) →
        ws.foldl Write.apply m a = m a := by
    intro ws
    induction ws with
    | nil => exact fun _ _ => rfl
    | cons w ws ih =>
        intro m hw
        rw [List.foldl_cons, ih _ fun w' hw' => hw w' (List.mem_cons_of_mem _ hw')]
        have := hw w List.mem_cons_self
        exact if_neg (by omega)
  exact key writes shared h.inside

namespace Decoder

variable {d d' : Decoder}

/-- A decoder with a session has one of the sizes and depths that `configure` admits. -/
structure Sound (d : Decoder) : Prop where
  width : d.session = true → d.width ≤ 4096
  height : d.session = true → d.height ≤ 4096
  even : d.session = true → d.height % 2 = 0

/-- A new decoder has no picture. -/
theorem sound_initial : Sound initial := ⟨nofun, nofun, nofun⟩

/-- Configuring keeps the decoder sound. -/
theorem configure_sound (hd : Sound d) (w h : Nat) (config : Data) (created : Bool) :
    Sound (d.configure w h config created).1 := by
  unfold configure
  split
  · next hw =>
      obtain ⟨-, -, -, hw, hh, -, heven, -⟩ := hw
      dsimp only
      split
      · exact ⟨fun _ => hw, fun _ => hh, fun _ => heven⟩
      · exact ⟨nofun, nofun, nofun⟩
  · exact hd

/-- The rows of a plane fill a range of their length. -/
theorem copyRows_fills (destination stride bytes : Nat) (p : Nat → UInt8) (offset rows : Nat) :
    (copyRows destination stride bytes p offset rows).2 = offset + rows * bytes ∧
      Fills (destination + offset) (destination + offset + rows * bytes)
        (copyRows destination stride bytes p offset rows).1 := by
  induction rows with
  | zero => simpa [copyRows] using Fills.nil _
  | succ y ih =>
      obtain ⟨hoffset, hfills⟩ := ih
      have hrow := fills_singleton (destination + (offset + y * bytes))
        ((List.range bytes).map fun i => p (y * stride + i))
      rw [List.length_map, List.length_range, ← Nat.add_assoc destination] at hrow
      simp only [copyRows, hoffset, Nat.succ_mul]
      refine ⟨by omega, ?_⟩
      rw [← Nat.add_assoc (destination + offset), ← Nat.add_assoc destination offset]
      exact hfills.append hrow (by omega) (by omega)

theorem copyPlane_fills {destination offset rows : Nat} {plane : Plane} {writes : List Write}
    {offset' : Nat} (h : d.copyPlane destination plane offset rows = some (writes, offset')) :
    offset' = offset + rows * (d.width * d.sample) ∧
      Fills (destination + offset) (destination + offset') writes := by
  unfold copyPlane at h
  split at h
  · next p _ =>
      obtain ⟨-, h⟩ := Option.ite_none_right_eq_some.mp h
      obtain ⟨hoffset, hfills⟩ :=
        copyRows_fills destination plane.stride (d.width * d.sample) p offset rows
      rw [Option.some.inj h] at hoffset hfills
      obtain rfl : offset' = offset + rows * (d.width * d.sample) := hoffset
      rw [Nat.add_assoc] at hfills
      exact ⟨rfl, hfills⟩
  · cases h

/-- The two planes are the output. -/
theorem outputSize_eq (hd : d.height % 2 = 0) :
    d.height * (d.width * d.sample) + d.height / 2 * (d.width * d.sample) = d.outputSize := by
  obtain ⟨m, hm⟩ : ∃ m, d.height = 2 * m := ⟨d.height / 2, by omega⟩
  have hhalf : d.width * (2 * m) * 3 / 2 = d.width * m * 3 := by
    have : d.width * (2 * m) * 3 = 2 * (d.width * m * 3) := by ring
    omega
  rw [outputSize, hm, hhalf, Nat.mul_div_cancel_left _ (by decide)]
  ring

/-- **Decoding** writes the start of the slot at most, and returns no bytes or the output. -/
theorem decode_writes (hd : Sound d) {picture : Picture} {destination : Nat} {writes : List Write}
    {result : Option Nat} (h : d.decode picture destination = (writes, result)) :
    (∃ n, n ≤ slotSize ∧ Fills destination (destination + n) writes) ∧
      ∀ bytes, result = some bytes → d.session = true ∧
        (bytes = 0 ∨ bytes = d.outputSize ∧ d.outputSize ≤ slotSize) := by
  have hnil := fills_nil destination
  unfold decode at h
  split at h
  case isFalse =>
    cases h
    exact ⟨hnil, nofun⟩
  case isTrue hsession =>
    split at h
    case h_1 =>
      cases h
      exact ⟨hnil, nofun⟩
    case h_2 =>
      cases h
      refine ⟨hnil, fun bytes hb => ⟨hsession, .inl ?_⟩⟩
      exact (Option.some.inj hb).symm
    case h_3 =>
      split at h
      case h_2 =>
        cases h
        exact ⟨hnil, nofun⟩
      case h_1 =>
        split at h
        case isFalse =>
          cases h
          exact ⟨hnil, nofun⟩
        case isTrue hsize =>
          obtain ⟨-, -, hsize⟩ := hsize
          have hout := outputSize_eq (hd.even hsession)
          split at h
          case h_2 =>
            cases h
            exact ⟨hnil, nofun⟩
          -- The chroma rows follow the luma rows, and both together are the output.
          case h_1 luma _ _ hluma =>
            obtain ⟨hoffset, hluma⟩ := copyPlane_fills hluma
            rw [Nat.add_zero, Nat.zero_add] at *
            split at h
            case h_2 =>
              cases h
              exact ⟨⟨_, by omega, hluma⟩, nofun⟩
            case h_1 hchroma =>
              cases h
              obtain ⟨hoffset', hchroma⟩ := copyPlane_fills hchroma
              refine ⟨⟨_, ?_, hluma.append hchroma (by omega) (by omega)⟩, ?_⟩
              · omega
              · intro bytes hb
                exact ⟨hsession, .inr ⟨(Option.some.inj hb).symm, hsize⟩⟩

end Decoder

/-! ### The checks -/

/-- The descriptor is of a range of one slot of the map. -/
def InSlot (desc : Words) : Prop :=
  ∃ slot < 4, desc.w0.toNat = slot * slotSize ∧
    desc.w0.toNat + desc.w2.toNat ≤ (slot + 1) * slotSize

/-- A descriptor that passes the checks lies in a slot. -/
theorem inSlot_of_checks {desc : Words} (h₀ : desc.w0 % (16 * 1024 * 1024) = 0)
    (h₁ : ¬ desc.w0 > 48 * 1024 * 1024) (h₂ : ¬ desc.w2 > 16 * 1024 * 1024) : InSlot desc := by
  have hmod : desc.w0.toNat % 16777216 = 0 := congrArg UInt32.toNat h₀
  have hle : desc.w0.toNat ≤ 50331648 := Nat.le_of_not_lt h₁
  have hlen : desc.w2.toNat ≤ 16777216 := Nat.le_of_not_lt h₂
  refine ⟨desc.w0.toNat / 16777216, by omega, ?_, ?_⟩
  · simp only [slotSize]
    omega
  · simp only [slotSize]
    omega

variable {shared direct : Bool} {h r desc : Words} {op a : UInt32} {cap : Nat}

/-- What the client relays lies in a slot. -/
theorem client_inSlot {x : Relayed} (hx : client shared direct h r desc = some x) :
    InSlot desc := by
  obtain ⟨hc, -⟩ := Option.ite_none_left_eq_some.mp hx
  simp only [not_or, not_not] at hc
  obtain ⟨-, -, -, h₀, h₁, h₂, -⟩ := hc
  exact inSlot_of_checks h₀ h₁ h₂

theorem rpc_inSlot {x : Copied} (hr : r.w0 = 2) (hx : rpc op a cap shared r desc = some x) :
    InSlot desc ∧ desc.w2.toNat ≤ cap := by
  rw [rpc, if_pos hr] at hx
  obtain ⟨hc, -⟩ := Option.ite_none_left_eq_some.mp hx
  simp only [not_or, not_not] at hc
  obtain ⟨-, -, -, -, h₀, h₁, h₂, hcap, -⟩ := hc
  exact ⟨inSlot_of_checks h₀ h₁ h₂, Nat.le_of_not_lt hcap⟩

/-- A frame that `client` copied is bounded by the driver's other check. -/
theorem rpc_frame {r' desc' : Words} {address length : Nat} {x : Copied}
    (hr : client shared direct h r desc = some (.frame r' address length))
    (hx : rpc op a cap shared r' desc' = some x) :
    address = desc.w0.toNat ∧ length = desc.w2.toNat ∧ length ≤ cap := by
  obtain ⟨-, hr⟩ := Option.ite_none_left_eq_some.mp hr
  split at hr
  · cases hr
  · cases hr
    rw [rpc, if_neg (show (0 : UInt32) ≠ 2 by decide)] at hx
    obtain ⟨hc, -⟩ := Option.ite_none_left_eq_some.mp hx
    exact ⟨rfl, rfl, Nat.le_of_not_lt fun hlt => hc (.inr hlt)⟩

/-- The descriptor passes both checks, with the header it answers and the capacity of the
surface. -/
structure Passes (a : Words) (cap : Nat) (r desc : Words) : Prop where
  status : r.w0 = 2
  client : ∀ direct, (client true direct a r desc).isSome
  rpc : rpc 2 a.w1 cap true r desc = some (.shared desc.w0.toNat desc.w2.toNat)

/-- The size of a frame, as each of the three computes it. -/
theorem expected_eq {d : Decoder} (hw : d.width ≤ 4096) (hh : d.height ≤ 4096)
    (hr₁ : r.w1.toNat = d.width) (hr₂ : r.w2.toNat = d.height) :
    expected r = d.width * d.height * 3 / 2 ∧
      capacity d.width d.height d.sample = d.outputSize ∧ expected r * 2 < 2 ^ 64 := by
  have hmul : d.width * d.height ≤ 4096 * 4096 := Nat.mul_le_mul hw hh
  have hs : d.sample ≤ 2 := by
    unfold Decoder.sample
    split <;> omega
  have hout : d.width * d.height * 3 / 2 * d.sample ≤ 4096 * 4096 * 3 / 2 * 2 :=
    Nat.mul_le_mul (by omega) hs
  have hexp : expected r = d.width * d.height * 3 / 2 := by
    rw [expected, hr₁, hr₂, Nat.mod_eq_of_lt (by omega : d.width * d.height < 2 ^ 64),
      Nat.mod_eq_of_lt (by omega)]
  refine ⟨hexp, ?_, by omega⟩
  rw [capacity, Nat.mod_eq_of_lt (by omega : d.width * d.height < 2 ^ 64),
    Nat.mod_eq_of_lt (by omega : d.width * d.height * 3 < 2 ^ 64), Nat.mod_eq_of_lt (by omega)]
  rfl

theorem toNat_word {n : Nat} (h : n ≤ slotSize) : (UInt32.ofNat n).toNat = n :=
  UInt32.toNat_ofNat_of_lt' (h.trans_lt (by decide))

theorem slotSize_pos : 0 < slotSize := by decide

/-- The addresses of the four slots pass the checks. -/
theorem slot_word : ∀ slot < 4, UInt32.ofNat (slot * slotSize) % (16 * 1024 * 1024) = 0 ∧
    ¬ UInt32.ofNat (slot * slotSize) > 48 * 1024 * 1024 := by
  decide

/-- What the service describes passes. -/
theorem passes_reply {d : Decoder} {slot bytes : Nat} (hw : d.width ≤ 4096) (hh : d.height ≤ 4096)
    (hslot : slot < 4) (hb : bytes = 0 ∨ bytes = d.outputSize ∧ d.outputSize ≤ slotSize)
    (a : Words) :
    Passes a (capacity d.width d.height d.sample)
      ⟨2, .ofNat d.width, .ofNat d.height, 16⟩ ⟨.ofNat (slot * slotSize), 0, .ofNat bytes, a.w1⟩ := by
  have hw' := toNat_word (show d.width ≤ slotSize by simp only [slotSize]; omega)
  have hh' := toNat_word (show d.height ≤ slotSize by simp only [slotSize]; omega)
  have hbytes : bytes ≤ slotSize := by
    rcases hb with rfl | ⟨rfl, hb⟩
    · exact Nat.zero_le _
    · exact hb
  have hb' := toNat_word hbytes
  obtain ⟨hexp, hcap, hlt⟩ := expected_eq
    (r := ⟨2, .ofNat d.width, .ofNat d.height, 16⟩) hw hh hw' hh'
  obtain ⟨h₀, h₁⟩ := slot_word slot hslot
  have h₂ : ¬ UInt32.ofNat bytes > 16 * 1024 * 1024 :=
    fun hgt => absurd (UInt32.lt_iff_toNat_lt.mp hgt) (by rw [hb']; exact Nat.not_lt.mpr hbytes)
  have hr₁ : ¬ UInt32.ofNat d.width > 4096 :=
    fun hgt => absurd (UInt32.lt_iff_toNat_lt.mp hgt) (by rw [hw']; exact Nat.not_lt.mpr hw)
  have hr₂ : ¬ UInt32.ofNat d.height > 4096 :=
    fun hgt => absurd (UInt32.lt_iff_toNat_lt.mp hgt) (by rw [hh']; exact Nat.not_lt.mpr hh)
  have hsize : (UInt32.ofNat bytes) = 0 ∨ bytes = d.width * d.height * 3 / 2 ∨
      bytes = d.width * d.height * 3 / 2 * 2 := by
    rcases hb with rfl | ⟨rfl, -⟩
    · exact .inl rfl
    · unfold Decoder.outputSize Decoder.sample
      split
      · exact .inr (.inl (Nat.mul_one _))
      · exact .inr (.inr rfl)
  refine ⟨rfl, fun direct => ?_, ?_⟩
  · rw [client, if_neg]
    · cases direct <;> rfl
    · rw [hb', Nat.mod_eq_of_lt hlt, hexp]
      simp only [h₀, h₁, h₂, hr₁, hr₂]
      tauto
  · rw [rpc, if_pos rfl, if_neg]
    rw [hb', hcap]
    have hle : ¬ bytes > d.outputSize := by
      rcases hb with rfl | ⟨rfl, -⟩
      · exact Nat.not_lt_zero _
      · exact lt_irrefl _
    simp only [h₀, h₁, h₂, hle]
    tauto

/-! ### The service -/

/-- What a packet does: the writes, the reply, and what stays. -/
theorem Connection.packet_spec {c c' : Connection} {a : Words} {payload : Data} {T : Toolbox}
    {delivered : Bool} {o : Output} (hd : c.decoder.Sound) (hslot : c.slot < 4)
    (h : c.packet a payload T delivered = (o, c')) :
    c'.slot = c.slot ∧ c'.decoder.Sound ∧
      (∃ n, n ≤ slotSize ∧ Fills (c.slot * slotSize) (c.slot * slotSize + n) o.writes) ∧
      ∀ reply, o.reply = some reply → reply = refusal ∨ reply = ⟨⟨0, 0, 0, 0⟩, none⟩ ∨
        ∃ desc, reply.descriptor = some desc ∧ desc.w0.toNat = c.slot * slotSize ∧
          Passes a (capacity c.decoder.width c.decoder.height c.decoder.sample) reply.header
            desc := by
  -- Every branch but the last one writes nothing.
  have hnil := fills_nil (c.slot * slotSize)
  have hrefusal : ∀ reply, some refusal = some reply → reply = refusal ∨
      reply = ⟨⟨0, 0, 0, 0⟩, none⟩ ∨ ∃ desc, reply.descriptor = some desc ∧
        desc.w0.toNat = c.slot * slotSize ∧
        Passes a (capacity c.decoder.width c.decoder.height c.decoder.sample) reply.header desc :=
    fun reply hr => .inl (Option.some.inj hr).symm
  unfold packet at h
  split at h
  case isFalse =>
    cases h
    exact ⟨rfl, hd, hnil, nofun⟩
  case isTrue =>
    split at h
    case isTrue =>
      have hd' := Decoder.configure_sound hd a.w1.toNat a.w2.toNat payload T.created
      split at h
      next decoder configured hconf =>
        rw [hconf] at hd'
        split at h
        · cases h
          exact ⟨rfl, hd', hnil, fun reply hr => .inr (.inl (Option.some.inj hr).symm)⟩
        · cases h
          exact ⟨rfl, hd', hnil, hrefusal⟩
    case isFalse =>
      split at h
      case isFalse =>
        cases h
        exact ⟨rfl, hd, hnil, hrefusal⟩
      case isTrue =>
        split at h
        · next writes bytes hdec =>
            cases h
            obtain ⟨hwrites, hresult⟩ := Decoder.decode_writes hd hdec
            obtain ⟨hsession, hbytes⟩ := hresult bytes rfl
            refine ⟨rfl, hd, hwrites, fun reply hr => .inr (.inr ?_)⟩
            cases hr
            refine ⟨_, rfl, UInt32.toNat_ofNat_of_lt' ?_, ?_⟩
            · exact (Nat.mul_lt_mul_of_pos_right hslot slotSize_pos).trans (by decide)
            · exact passes_reply (hd.width hsession) (hd.height hsession) hslot hbytes a
        · next writes hdec =>
            cases h
            exact ⟨rfl, hd, (Decoder.decode_writes hd hdec).1, hrefusal⟩

namespace Service

variable {s s' : Service} {e : Event} {o : Output}

/-- Each slot is free or held by one connection, and the decoders are sound. -/
structure Owned (s : Service) : Prop where
  slots : (s.freeSlots ++ s.connections.map Connection.slot).Perm [0, 1, 2, 3]
  sound : ∀ c ∈ s.connections, c.decoder.Sound

/-- At the start every slot is free. -/
theorem owned_initial (shared : Nat → UInt8) : Owned (initial shared) where
  slots := .refl _
  sound := by simp [initial]

/-- A connection has one of the four slots. -/
theorem Owned.slot_lt (I : Owned s) {c : Connection} (hc : c ∈ s.connections) : c.slot < 4 := by
  have hmem : c.slot ∈ [0, 1, 2, 3] :=
    I.slots.subset (List.mem_append_right _ (List.mem_map_of_mem hc))
  simp only [List.mem_cons, List.not_mem_nil, or_false] at hmem
  omega

/-- No slot is free and owned, or owned twice. -/
theorem Owned.nodup (I : Owned s) : (s.freeSlots ++ s.connections.map Connection.slot).Nodup :=
  I.slots.nodup_iff.mpr (by decide)

/-- A connection goes on with its slot. -/
theorem Owned.set (I : Owned s) {n : Nat} {c c' : Connection} (hc : s.connections[n]? = some c)
    (hslot : c'.slot = c.slot) (hsound : c'.decoder.Sound) (shared : Nat → UInt8) :
    Owned { s with connections := s.connections.set n c', shared := shared } where
  slots := by
    have hmap : (s.connections.set n c').map Connection.slot = s.connections.map Connection.slot := by
      obtain ⟨hn, rfl⟩ := List.getElem?_eq_some_iff.mp hc
      rw [List.map_set, hslot, ← List.getElem_map Connection.slot (h := by simpa using hn)]
      exact List.set_getElem_self _
    simpa only [hmap] using I.slots
  sound x hx := by
    rcases List.mem_or_eq_of_mem_set hx with hx | rfl
    · exact I.sound x hx
    · exact hsound

/-- A packet is the step of its connection alone. -/
theorem step_packet {n : Nat} {a : Words} {payload : Data} {T : Toolbox} {delivered : Bool}
    (h : s.step (.packet n a payload T delivered) = some (o, s')) :
    ∃ c c', s.connections[n]? = some c ∧ c.packet a payload T delivered = (o, c') ∧
      s' = { s with
        connections := s.connections.set n c'
        shared := o.writes.foldl Write.apply s.shared } := by
  simp only [step] at h
  split at h
  · next c hc =>
      obtain ⟨-, h⟩ := Option.ite_none_right_eq_some.mp h
      obtain ⟨rfl, rfl⟩ := Prod.ext_iff.mp (Option.some.inj h)
      exact ⟨c, _, hc, rfl, rfl⟩
  · cases h

/-- Each step keeps every slot with one owner. -/
theorem owned_step (I : Owned s) (h : s.step e = some (o, s')) : Owned s' := by
  cases e with
  | accept =>
      simp only [step] at h
      split at h
      · cases h
        exact I
      · next slot hlast =>
          cases h
          refine ⟨?_, ?_⟩
          · -- The slot moves from the end of the free ones to the end of those held.
            have hfree : s.freeSlots = s.freeSlots.dropLast ++ [slot] :=
              (List.dropLast_append_getLast? slot hlast).symm
            have hslots := I.slots
            rw [hfree] at hslots
            refine List.Perm.trans ?_ hslots
            simp only [List.map_append, List.map_cons, List.map_nil, List.append_assoc]
            exact (List.perm_append_comm).append_left _
          · intro c hc
            rcases List.mem_append.mp hc with hc | hc
            · exact I.sound c hc
            · obtain rfl := List.mem_singleton.mp hc
              exact Decoder.sound_initial
  | packet n a payload T delivered =>
      obtain ⟨c, c', hc, hp, rfl⟩ := step_packet h
      have hmem := List.mem_of_getElem? hc
      obtain ⟨hslot, hsound, -⟩ := Connection.packet_spec (I.sound c hmem) (I.slot_lt hmem) hp
      exact I.set hc hslot hsound _
  | finish n =>
      simp only [step] at h
      split at h
      · next c hc =>
          obtain ⟨-, h⟩ := Option.ite_none_right_eq_some.mp h
          cases h
          have hslot : Connection.slot { c with serving := false } = c.slot := rfl
          exact I.set hc hslot (I.sound c (List.mem_of_getElem? hc)) _
      · cases h
  | release n =>
      simp only [step] at h
      split at h
      · next c hc =>
          obtain ⟨-, h⟩ := Option.ite_none_left_eq_some.mp h
          cases h
          obtain ⟨hn, hget⟩ := List.getElem?_eq_some_iff.mp hc
          refine ⟨?_, fun x hx => I.sound x (List.mem_of_mem_eraseIdx hx)⟩
          -- The slot goes back to the free ones.
          have herase : (s.connections.map Connection.slot).Perm
              (c.slot :: (s.connections.eraseIdx n).map Connection.slot) := by
            have hperm := (List.getElem_cons_eraseIdx_perm hn).symm.map Connection.slot
            rwa [hget] at hperm
          refine List.Perm.trans ?_ ((herase.symm.append_left s.freeSlots).trans I.slots)
          simp only [List.append_assoc, List.singleton_append]
          exact .refl _
      · cases h

/-- **Frames stay in their slot.**  In every run: the connections hold different slots of the four,
none of which is free; a packet writes to the slot of its connection only, and no more than a slot;
a reply with status 2 passes the checks of both readers, for a surface of the connection's size and
depth; and whatever passes a check is a range of one slot, no longer than the surface. -/
theorem frames_in_slot {shared : Nat → UInt8} {t : List (Event × Output)} {s : Service}
    (h : Steps (fun s e o s' => s.step e = some (o, s')) (initial shared) t s) :
    ((s.connections.map Connection.slot).Nodup ∧
      ∀ c ∈ s.connections, c.slot < 4 ∧ c.slot ∉ s.freeSlots) ∧
    (∀ n a payload T delivered o s', s.step (.packet n a payload T delivered) = some (o, s') →
      ∃ c, s.connections[n]? = some c ∧
        (∀ w ∈ o.writes, c.slot * slotSize ≤ w.address ∧
          w.address + w.bytes.length ≤ (c.slot + 1) * slotSize) ∧
        (o.writes.map fun w => w.bytes.length).sum ≤ slotSize ∧
        (∀ x, x < c.slot * slotSize ∨ (c.slot + 1) * slotSize ≤ x → s'.shared x = s.shared x) ∧
        ∀ reply, o.reply = some reply → reply.header.w0 = 2 →
          ∃ desc, reply.descriptor = some desc ∧ desc.w0.toNat = c.slot * slotSize ∧
            Passes a (capacity c.decoder.width c.decoder.height c.decoder.sample)
              reply.header desc) ∧
    (∀ direct h r desc x, client true direct h r desc = some x → InSlot desc) ∧
    (∀ op a cap r desc x, r.w0 = 2 → rpc op a cap true r desc = some x →
      InSlot desc ∧ desc.w2.toNat ≤ cap) ∧
    ∀ direct h r desc r' address length op a cap desc' x,
      client true direct h r desc = some (.frame r' address length) →
        rpc op a cap true r' desc' = some x →
          address = desc.w0.toNat ∧ length = desc.w2.toNat ∧ length ≤ cap := by
  have I : Owned s := h.invariant owned_step (owned_initial shared)
  refine ⟨⟨?_, ?_⟩, ?_, fun _ _ _ _ _ => client_inSlot, fun _ _ _ _ _ _ => rpc_inSlot,
    fun _ _ _ _ _ _ _ _ _ _ _ _ => rpc_frame⟩
  · exact (List.nodup_append.mp I.nodup).2.1
  · intro c hc
    refine ⟨I.slot_lt hc, fun hfree => ?_⟩
    exact (List.nodup_append.mp I.nodup).2.2 _ hfree _ (List.mem_map_of_mem hc) rfl
  · intro n a payload T delivered o s' hstep
    obtain ⟨c, c', hc, hp, rfl⟩ := step_packet hstep
    have hmem := List.mem_of_getElem? hc
    obtain ⟨-, -, ⟨k, hk, hfills⟩, hreply⟩ :=
      Connection.packet_spec (I.sound c hmem) (I.slot_lt hmem) hp
    refine ⟨c, hc, ?_, ?_, ?_, ?_⟩
    · intro w hw
      have := hfills.inside w hw
      rw [Nat.add_mul, Nat.one_mul]
      omega
    · rw [hfills.total]
      omega
    · intro x hx
      refine hfills.frame s.shared ?_
      rw [Nat.add_mul, Nat.one_mul] at hx
      omega
    · intro reply hr hstatus
      rcases hreply reply hr with rfl | rfl | hdesc
      · exact absurd hstatus (by decide)
      · exact absurd hstatus (by decide)
      · exact hdesc

/-- Two rows of two bytes, and one row of two bytes. -/
def samplePicture : Picture :=
  .image 2 2 [⟨some fun i => .ofNat i, 64⟩, ⟨some fun i => .ofNat (128 + i), 64⟩]

/-- A second connection is accepted and configured for 2 × 2 samples of 8 bits. -/
def sampleEvents : List Event :=
  [.accept, .accept,
    .packet 1 ⟨3, 2, 2, 12⟩ [1, 0, 0, 0, 0, 0, 0x80, 2, 2, 2, 0, 0] ⟨true, .none⟩ true,
    .finish 0, .release 0]

/-- The sample frame is written into the slot of its connection. -/
theorem frames_in_slot_sample : ∃ (s : Service) (o : Output) (s' : Service), s.step
      (.packet 0 ⟨2, 7, 0, 1⟩ [0] ⟨true, samplePicture⟩ true) = some (o, s') ∧
    o.reply = some ⟨⟨2, 2, 2, 16⟩, some ⟨2 * 16777216, 0, 6, 7⟩⟩ ∧
    (o.writes.map fun w => w.bytes.length).sum ≤ slotSize ∧
    (s.connections.map Connection.slot).Nodup := by
  have hplay : ((play step (initial fun _ => 0) sampleEvents).bind fun r =>
      (r.2.step (.packet 0 ⟨2, 7, 0, 1⟩ [0] ⟨true, samplePicture⟩ true)).map fun u => u.1.reply) =
        some (some ⟨⟨2, 2, 2, 16⟩, some ⟨2 * 16777216, 0, 6, 7⟩⟩) := by
    decide +kernel
  obtain ⟨⟨t, s⟩, hplay, hstep⟩ := Option.bind_eq_some_iff.mp hplay
  obtain ⟨⟨o, s'⟩, hstep, hreply⟩ := Option.map_eq_some_iff.mp hstep
  obtain ⟨⟨hnodup, -⟩, hpackets, -⟩ := frames_in_slot (Steps.of_play hplay)
  obtain ⟨c, -, -, htotal, -⟩ := hpackets _ _ _ _ _ _ _ hstep
  exact ⟨s, o, s', hstep, hreply, htotal, hnodup⟩

end Service

end Ashacky.Video
