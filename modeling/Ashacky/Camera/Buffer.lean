import Ashacky.Support.Machine
import Ashacky.Support.Stores

/-!
# Camera — the shared buffer

`host/devices/CameraBuffer.swift` and `host/common/CameraMemory.c`: the host puts frames into three
slots of a memory that the guest maps read-only, and hands out descriptors of them; the guest copies
a frame out of its slot.

The methods of `CameraBuffer` run under its lock, so that its fields change at once for the other
callers, and only `next` gives the lock up while it waits.  What a method stores to the memory is
seen store by store: `stores` is what is left of it, and the lock is kept until it is done.  A
`memcpy` or `memset` stores in any order.  Readers take no lock; each of their loads is a step.
The steps are sequentially consistent, and a generation is one cell.

Streams (`UUID()`) are counted in the order they are drawn.  `published` and `delivered` record the
frames that were published and the descriptors that `next` returned.
-/

namespace Ashacky.Camera
open Ashacky.Support

/-- The size of a frame: rows of `width` bytes, two rows of luma for one of chroma. -/
structure Format where
  width : Nat
  pairs : Nat

/-- `1280` by `720`. -/
def camera : Format := ⟨1280, 360⟩

def Format.height (F : Format) : Nat := 2 * F.pairs

/-- `FRAME_BYTES`. -/
def Format.bytes (F : Format) : Nat := F.width * F.height * 3 / 2

/-- The words of the memory. -/
inductive Cell where
  | sequence (slot : Nat)
  | generation (slot : Nat)
  | pixel (slot index : Nat)
  deriving DecidableEq

def Cell.slot : Cell → Nat
  | .sequence slot | .generation slot | .pixel slot _ => slot

/-- What a word holds; a generation of sixteen zeros is `none`. -/
inductive Value where
  | word (n : Nat)
  | uuid (id : Option Nat)
  | byte (b : UInt8)
  deriving DecidableEq

def Value.toByte : Value → UInt8
  | .byte b => b
  | _ => 0

abbrev Memory := Cell → Value

/-- The pixels of a frame, by their place in the slot. -/
abbrev Pixels := Nat → UInt8

/-! ### The memory -/

/-- `ashacky_camera_clear`. -/
def clear (F : Format) : Stores Cell Value :=
  (List.range 3).flatMap fun i =>
    [[⟨.sequence i, .word 0⟩],
      ⟨.generation i, .uuid none⟩ :: (List.range F.bytes).map fun j => ⟨.pixel i j, .byte 0⟩]

/-- The planes that `ashacky_camera_publish` is called with. -/
structure Planes where
  y : Nat → UInt8
  yStride : Nat
  uv : Nat → UInt8
  uvStride : Nat

/-- The byte that goes to a place of the slot: a row of luma, or below these one of chroma. -/
def Planes.pixels (F : Format) (p : Planes) : Pixels := fun i =>
  if i / F.width < F.height then p.y (i / F.width * p.yStride + i % F.width)
  else p.uv ((i / F.width - F.height) * p.uvStride + i % F.width)

/-- The stores of `ashacky_camera_publish`. -/
def publish (F : Format) (slot id sequence : Nat) (pixels : Pixels) : Stores Cell Value :=
  [[⟨.sequence slot, .word 0⟩], [⟨.generation slot, .uuid (some id)⟩],
    (List.range F.bytes).map fun i => ⟨.pixel slot i, .byte (pixels i)⟩,
    [⟨.sequence slot, .word sequence⟩]]

/-- `ashacky_camera_publish` does not refuse its arguments. -/
def publishable (F : Format) (slot sequence : Nat) (p : Planes) : Bool :=
  slot < 3 && sequence ≠ 0 && F.width ≤ p.yStride && F.width ≤ p.uvStride

/-- Where `ashacky_camera_copy` is; `left` are the places that are still to copy. -/
inductive Phase where
  | load
  | compare
  | copying (left : List Nat)
  | recompare
  | returned (code : Int)
  deriving DecidableEq

/-- A call of `ashacky_camera_copy`. -/
structure Reader where
  slot : Nat
  generation : Nat
  sequence : Nat
  destination : Pixels
  phase : Phase

/-- The call starts with its check of the arguments. -/
def Reader.start (F : Format) (slot generation sequence bytes : Nat) (destination : Pixels) :
    Reader :=
  { slot, generation, sequence, destination
    phase := if 3 ≤ slot ∨ sequence = 0 ∨ bytes ≠ F.bytes then .returned (-1) else .load }

/-- `memset(destination, 0, bytes)` and `return -2`. -/
def Reader.zero (F : Format) (r : Reader) : Reader :=
  { r with
    destination := fun i => if i < F.bytes then 0 else r.destination i
    phase := .returned (-2) }

/-- A step of the call: one load, the k-th of those that can be next. -/
def Reader.step (F : Format) (mem : Memory) (k : Nat) (r : Reader) : Option Reader :=
  match r.phase with
  | .load =>
      some (if mem (.sequence r.slot) = .word r.sequence then { r with phase := .compare }
        else { r with phase := .returned (-2) })
  | .compare =>
      some (if mem (.generation r.slot) = .uuid (some r.generation) then
          { r with phase := .copying (List.range F.bytes) }
        else { r with phase := .returned (-2) })
  | .copying [] =>
      some (if mem (.sequence r.slot) = .word r.sequence then { r with phase := .recompare }
        else r.zero F)
  | .copying left =>
      (left[k]?).map fun i =>
        { r with
          destination := Function.update r.destination i (mem (.pixel r.slot i)).toByte
          phase := .copying (left.eraseIdx k) }
  | .recompare =>
      some (if mem (.generation r.slot) = .uuid (some r.generation) then
          { r with phase := .returned 0 }
        else r.zero F)
  | .returned _ => none

/-! ### The buffer -/

/-- `(slot: Int, sequence: Int)`. -/
structure Frame where
  slot : Nat
  sequence : Nat
  deriving DecidableEq

/-- A call of `next` that waits. -/
structure Call where
  requested : String
  ack : Int
  deriving DecidableEq

/-- A frame that was published. -/
structure Publication where
  generation : Nat
  sequence : Nat
  pixels : Pixels

/-- What the answer of `next` names. -/
structure Descriptor where
  generation : Nat
  slot : Nat
  sequence : Nat
  deriving DecidableEq

/-- The answer of `next`. -/
structure Reply where
  stream : String
  slot : Nat
  sequence : Nat
  width : Nat
  height : Nat
  bytes : Nat
  format : String
  deriving DecidableEq

structure CameraBuffer where
  stream : Option Nat
  generation : Option Nat
  sequence : Nat
  queued : Option Frame
  leased : Option Frame
  /-- The calls of `next` that wait on the condition. -/
  waiting : List Call
  memory : Memory
  /-- What the method that holds the lock has still to store. -/
  stores : Stores Cell Value
  /-- The method that holds the lock, if one does: `publish` with the frame it will queue, or
  one that clears the memory. -/
  lock : Option (Option Frame)
  drawn : Nat
  readers : List Reader
  published : List Publication
  delivered : List Descriptor

namespace CameraBuffer

/-- `init`, with what the mapped file holds. -/
def initial (F : Format) (memory : Memory) : CameraBuffer where
  stream := none
  generation := none
  sequence := 0
  queued := none
  leased := none
  waiting := []
  memory := memory
  stores := clear F
  lock := some none
  drawn := 0
  readers := []
  published := []
  delivered := []

/-- `(0..<3).first { $0 != leased?.slot && $0 != queued?.slot }`. -/
def free (b : CameraBuffer) : Option Nat :=
  (List.range 3).find? fun slot =>
    some slot ≠ b.leased.map Frame.slot ∧ some slot ≠ b.queued.map Frame.slot

end CameraBuffer

/-- What a step shows: the answer of `begin` or `next`, or that `publish` found no slot. -/
inductive Output where
  | quiet
  | stream (id : String)
  | reply (answer : Except String Reply)
  | trap

/-- What happens: a method is called, a store of it is done, it gives up the lock, a call of `next`
wakes up (or its time is over), or a reader starts and goes on. -/
inductive Event where
  | beginStream
  | endStream
  | publish (planes : Planes)
  | store (k : Nat)
  | unlock
  | next (requested : String) (ack : Int)
  | wake (n : Nat) (timeout : Bool)
  | copy (slot generation sequence bytes : Nat) (destination : Pixels)
  | read (reader k : Nat)

section Methods
variable (F : Format) (uuidString : Nat → String)

namespace CameraBuffer

/-- `begin`. -/
def beginStream (b : CameraBuffer) : Output × CameraBuffer :=
  (.stream (uuidString b.drawn), { b with
    stream := some b.drawn
    generation := some b.drawn
    drawn := b.drawn + 1
    sequence := 0
    queued := none
    leased := none
    stores := clear F
    lock := some none })

/-- `end`. -/
def endStream (b : CameraBuffer) : Output × CameraBuffer :=
  (.quiet, { b with
    stream := none
    queued := none
    leased := none
    stores := clear F
    lock := some none })

/-- `publish`. -/
def publish (planes : Planes) (b : CameraBuffer) : Output × CameraBuffer :=
  match b.stream, b.generation with
  | some _, some generation =>
      if b.sequence < 2147483647 then
        match b.free with
        | some slot =>
            let b := { b with sequence := b.sequence + 1 }
            if publishable F slot b.sequence planes then
              (.quiet, { b with
                stores := Camera.publish F slot generation b.sequence (planes.pixels F)
                lock := some (some ⟨slot, b.sequence⟩)
                published := b.published ++ [⟨generation, b.sequence, planes.pixels F⟩] })
            else (.quiet, b)
        | none => (.trap, b)
      else (.quiet, b)
  | _, _ => (.quiet, b)

/-- The end of `next`, after the loop. -/
def take (requested : String) (b : CameraBuffer) : Output × CameraBuffer :=
  match b.stream, b.queued with
  | some id, some frame =>
      if uuidString id = requested then
        (.reply (.ok ⟨requested, frame.slot, frame.sequence, F.width, F.height, F.bytes, "nv12"⟩),
          { b with
            queued := none
            leased := some frame
            delivered := b.delivered ++ [⟨id, frame.slot, frame.sequence⟩] })
      else (.reply (.error "Camera stream stopped or stalled"), b)
  | _, _ => (.reply (.error "Camera stream stopped or stalled"), b)

/-- The guard of `next`: the stream is the current one, and the acknowledgement that of the lease. -/
def accepts (requested : String) (ack : Int) (b : CameraBuffer) : Bool :=
  b.stream.map uuidString = some requested ∧
    ack = ((b.leased.map fun f => (f.sequence : Int)).getD 0)

/-- The condition of the loop of `next`. -/
def waits (requested : String) (b : CameraBuffer) : Bool :=
  b.queued = none ∧ b.stream.map uuidString = some requested

/-- `next`, up to where it waits. -/
def next (requested : String) (ack : Int) (b : CameraBuffer) : Output × CameraBuffer :=
  if b.accepts uuidString requested ack then
    let b := { b with leased := none }
    if b.waits uuidString requested then
      (.quiet, { b with waiting := b.waiting ++ [⟨requested, ack⟩] })
    else b.take F uuidString requested
  else (.reply (.error "Invalid camera stream or acknowledgement"), b)

end CameraBuffer

/-- A step, when it can happen. -/
def step (b : CameraBuffer) : Event → Option (Output × CameraBuffer)
  | .beginStream => if b.lock = none then some (b.beginStream F uuidString) else none
  | .endStream => if b.lock = none then some (b.endStream F) else none
  | .publish planes => if b.lock = none then some (b.publish F planes) else none
  | .store k =>
      (Stores.perform b.memory b.stores k).map fun r =>
        (.quiet, { b with memory := r.1, stores := r.2 })
  | .unlock =>
      match b.lock with
      | some frame =>
          if b.stores.all List.isEmpty then
            some (.quiet, { b with
              lock := none
              stores := []
              queued := frame.or b.queued })
          else none
      | none => none
  | .next requested ack =>
      if b.lock = none then some (b.next F uuidString requested ack) else none
  | .wake n timeout =>
      match b.waiting[n]? with
      | some call =>
          if b.lock = none then
            -- the loop goes on unless its time is over
            if b.waits uuidString call.requested ∧ timeout = false then some (.quiet, b)
            else some ({ b with waiting := b.waiting.eraseIdx n }.take F uuidString call.requested)
          else none
      | none => none
  | .copy slot generation sequence bytes destination =>
      some (.quiet, { b with
        readers := b.readers ++ [.start F slot generation sequence bytes destination] })
  | .read reader k =>
      match b.readers[reader]? with
      | some r =>
          (r.step F b.memory k).map fun r =>
            (.quiet, { b with readers := b.readers.set reader r })
      | none => none

abbrev Trace := List (Event × Output)

/-- A run of the buffer and its readers. -/
abbrev Run : CameraBuffer → Trace → CameraBuffer → Prop :=
  Steps fun b e o b' => step F uuidString b e = some (o, b')

end Methods

/-! ### The guest -/

/-- The checks that `CameraStream.frame` makes of a reply, for its stream and its last sequence. -/
def frameAccepts (F : Format) (stream : String) (sequence : Int) (r : Reply) : Bool :=
  r.stream = stream && r.slot < 3 && (sequence < r.sequence && r.sequence ≤ 0x7fffffff) &&
    (r.width, r.height, r.bytes, r.format) = (F.width, F.height, F.bytes, "nv12")

end Ashacky.Camera
