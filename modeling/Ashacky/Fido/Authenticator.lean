import Ashacky.Support.Effect
import Ashacky.Fido.Cbor

/-!
# Fido — the authenticator

`host/auth/FIDO2.swift`.  The store, the transaction and the platform are parameters.  A store
operation is throwing code over a *world* `ω`, which holds whatever the store and the rest of the
program keep: the credential file, the keys, the cancellation flag, the state that `allowed()`
looks at.  Each sample a transaction takes may move the world on, so another thread can cancel
between any two steps.

Request parsing is pure: `makeParameters` and `assertionParameters` are the field checks of `make`
and `assertion` up to the first use of the store, in the order of the source.  `Date()` is read at
most once in a call of `process`, so its value `now` (in milliseconds) is an argument of the call.
The prompt texts (`localizedReason`) are left out.

Swift's `==` on strings is canonical equivalence, so it is a parameter (`Platform.same`) where the
id of a relying party meets a stored one.  Everywhere else a string of a request meets a literal in
ASCII, and none of those literals has a second canonical spelling; channels are in ASCII too
(`FIDO2Service` checks them).  That the keys of one dictionary of a message differ up to canonical
equivalence when they differ as scalars is assumed throughout, as `CBOR` says.
-/

namespace Ashacky.Fido
open Ashacky.Support

/-- Throwing code over a state. -/
abbrev Act (σ α : Type) := EStateM Thrown σ α

/-- `FIDOCredential`. -/
structure FIDOCredential where
  id : Data
  rp : String
  user : Data
  name : String
  displayName : String
  discoverable : Bool
  protection : Int
  publicKey : Data
  wrappedKey : Data
  deriving DecidableEq, Repr

/-- `FIDOTransaction`: how its two samples are taken. -/
structure FIDOTransaction (ω : Type) where
  stopped : ω → Bool × ω
  allowed : ω → Bool × ω

/-- `FIDOTransaction.check`. -/
def FIDOTransaction.check {ω : Type} (tx : FIDOTransaction ω) : Act ω Unit := do
  let cancelled ← modifyGet tx.stopped
  if cancelled then throw (.status 0x2d)
  else do
    let allowed ← modifyGet tx.allowed
    if allowed then pure () else throw (.status 0x27)

/-- `FIDOKeyStore`. -/
structure FIDOKeyStore (ω : Type) where
  credentials : Act ω (List FIDOCredential)
  generate (rp : String) (user : Data) (name displayName : String) (discoverable : Bool)
    (protection : Int) (transaction : FIDOTransaction ω) : Act ω FIDOCredential
  sign (credential : FIDOCredential) (data : Data) (transaction : FIDOTransaction ω) : Act ω Data
  save (credential : FIDOCredential) : Act ω Unit

/-- Every scalar of the text is in ASCII. -/
def isASCII (text : String) : Bool := text.toList.all fun c => c.val < 128

/-- What the code takes from CryptoKit, Foundation and the language runtime. -/
structure Platform where
  /-- `Data(SHA256.hash(data:))`. -/
  sha256 : Data → Data
  length_sha256 : ∀ d, (sha256 d).length = 32
  /-- `CharacterSet.controlCharacters` or `CharacterSet.illegalCharacters` contains the scalar. -/
  forbidden : Char → Bool
  /-- The order in which `for … in` visits a dictionary. -/
  order : List (CBORKey × CBOR) → List (CBORKey × CBOR)
  order_perm : ∀ m, (order m).Perm m
  /-- `==` on strings: canonical equivalence, which is equality on texts in ASCII. -/
  same : String → String → Bool
  same_refl : ∀ a, same a a = true
  same_ascii : ∀ a b, isASCII a = true → isASCII b = true → same a b = true → a = b

/-- `FIDO2Authenticator.maximumMessage`. -/
def maximumMessage : Nat := 1024

/-- `FIDO2Authenticator.maximumCredentials`. -/
def maximumCredentials : Nat := 256

/-- `FIDO2Authenticator.info`. -/
def info : CBOR :=
  .map [(.int 1, .array [.text "FIDO_2_0"]),
    (.int 2, .array [.text "credProtect"]),
    (.int 3, .bytes (List.replicate 16 0)),
    (.int 4, .map [(.text "rk", .bool true), (.text "up", .bool true), (.text "uv", .bool true),
      (.text "plat", .bool false), (.text "alwaysUv", .bool true)]),
    (.int 5, .int (Int64.ofNat maximumMessage))]

/-! ### Field checks -/

/-- `hash(value)`. -/
def hash : Option CBOR → Except Thrown Data
  | none => .error (.status 0x14)
  | some (.bytes d) => if d.length = 32 then .ok d else .error (.status 0x02)
  | some _ => .error (.status 0x02)

/-- The texts `rp` accepts: a host name in ASCII letters, digits, dots and hyphens. -/
def rpText (text : String) : Prop :=
  text ≠ "" ∧ (utf8 text).length ≤ 253 ∧
    (text.toList.all fun c => c.isAlphanum || c = '.' || c = '-') ∧
    text.toList.head? ≠ some '.' ∧ text.toList.getLast? ≠ some '.' ∧ ¬ ['.', '.'] <:+: text.toList

instance (text : String) : Decidable (rpText text) := inferInstanceAs (Decidable (_ ∧ _))

/-- `rp(value)`. -/
def rp : Option CBOR → Except Thrown String
  | none => .error (.status 0x14)
  | some (.text text) => if rpText text then .ok text else .error (.status 0x02)
  | some _ => .error (.status 0x02)

/-- `label(value)`. -/
def label (P : Platform) : Option CBOR → Except Thrown String
  | none => .ok ""
  | some (.text text) =>
      if (utf8 text).length ≤ 128 ∧ text.toList.all fun c => !P.forbidden c then .ok text
      else .error (.status 0x02)
  | some _ => .error (.status 0x02)

/-- One descriptor of `descriptors`; those of another type than `public-key` are dropped. -/
def descriptor (value : CBOR) : Except Thrown (Option Data) :=
  match (value.get "type").bind CBOR.string, (value.get "id").bind CBOR.data with
  | some type, some id =>
      if id ≠ [] ∧ id.length ≤ 1024 then .ok (if type = "public-key" then some id else none)
      else .error (.status 0x02)
  | _, _ => .error (.status 0x02)

/-- `descriptors(value)`. -/
def descriptors : Option CBOR → Except Thrown (Option (List Data))
  | none => .ok none
  | some value =>
      match value.values with
      | none => .error (.status 0x15)
      | some list =>
          if list.length ≤ 64 then do
            let ids ← list.mapM descriptor
            return some ids.reduceOption
          else .error (.status 0x15)

/-- The loop body of `options`. -/
def optionEntry (make : Bool) (result : List (String × Bool)) :
    CBORKey × CBOR → Except Thrown (List (String × Bool))
  | (.text name, .bool flag) =>
      if make ∧ name = "up" then .error (.status 0x2c)
      else if name ∉ ["rk", "uv", "up"] ∧ flag then .error (.status 0x2b)
      else if ¬ make ∧ name = "rk" then .error (.status 0x2b)
      else .ok ((name, flag) :: result)
  | _ => .error (.status 0x11)

/-- `options(value, make:)`. -/
def options (P : Platform) (value : Option CBOR) (make : Bool) :
    Except Thrown (List (String × Bool)) :=
  match value with
  | none => .ok []
  | some value =>
      match value.fields with
      | none => .error (.status 0x11)
      | some fields => (P.order fields).foldlM (optionEntry make) []

/-- `extensions(value)`. -/
def extensions : Option CBOR → Except Thrown (Option Int)
  | none => .ok none
  | some value =>
      match value.fields with
      | none => .error (.status 0x11)
      | some _ =>
          match value.get "credProtect" with
          | none => .ok none
          | some cp =>
              match cp.integer with
              | some level =>
                  if 1 ≤ level.toInt ∧ level.toInt ≤ 3 then .ok (some level.toInt)
                  else .error (.status 0x02)
              | none => .error (.status 0x02)

/-- `authData(rp:, flags:)`, with a zero signature counter. -/
def authData (P : Platform) (rp : String) (flags : UInt8) : Data :=
  P.sha256 (utf8 rp) ++ [flags, 0, 0, 0, 0]

/-- `publicCOSE(credential)`. -/
def publicCOSE (credential : FIDOCredential) : Except Thrown CBOR :=
  let key := credential.publicKey
  if key.length = 65 ∧ key.head? = some 4 then
    .ok (.map [(.int 1, .int 2), (.int 3, .int (-7)), (.int (-1), .int 1),
      (.int (-2), .bytes (slice key 1 33)), (.int (-3), .bytes (slice key 33 65))])
  else .error (.status 0x7f)

/-! ### The state -/

/-- The replies still to be fetched by GetNextAssertion. -/
structure Batch where
  channel : String
  deadline : Nat
  responses : List CBOR

/-- A call of `store.sign`, with what it returned. -/
structure SignCall where
  credential : FIDOCredential
  data : Data
  result : Except Thrown Data

/-- `FIDO2Authenticator`, with the world its store lives in.  `calls` records the calls of
`store.sign`, oldest first; no function reads it. -/
structure FIDO2Authenticator (ω : Type) where
  world : ω
  next : Option Batch
  calls : List SignCall

/-- Code over the world, as code of the authenticator. -/
def onWorld {ω α : Type} (x : Act ω α) : Act (FIDO2Authenticator ω) α := fun s =>
  match x.run s.world with
  | .ok a w => .ok a { s with world := w }
  | .error e w => .error e { s with world := w }

/-- A call of `store.sign`. -/
def FIDOKeyStore.signs {ω : Type} (store : FIDOKeyStore ω) (credential : FIDOCredential)
    (data : Data) (tx : FIDOTransaction ω) : Act (FIDO2Authenticator ω) Data := fun s =>
  match (store.sign credential data tx).run s.world with
  | .ok signature w =>
      .ok signature { s with world := w, calls := s.calls ++ [⟨credential, data, .ok signature⟩] }
  | .error e w =>
      .error e { s with world := w, calls := s.calls ++ [⟨credential, data, .error e⟩] }

/-! ### Making a credential -/

/-- The fields of a MakeCredential request. -/
structure MakeParameters where
  clientHash : Data
  relyingParty : String
  user : Data
  opts : List (String × Bool)
  cp : Option Int
  excluded : List Data

/-- The field checks of `make`. -/
def makeParameters (P : Platform) (request : CBOR) : Except Thrown MakeParameters := do
  let clientHash ← hash (request.index 1)
  let relyingParty ← rp ((request.index 2).bind (·.get "id"))
  match ((request.index 3).bind (·.get "id")).bind CBOR.data,
      (request.index 4).bind CBOR.values with
  | some user, some algorithms =>
      if 1 ≤ user.length ∧ user.length ≤ 64 ∧ 1 ≤ algorithms.length ∧ algorithms.length ≤ 64 then do
        let opts ← options P (request.index 7) true
        let cp ← extensions (request.index 6)
        if (request.index 8).isSome ∨ (request.index 9).isSome ∨ (request.index 10).isSome then
          .error (.status 0x2b)
        else if algorithms.any fun a => (a.get "type").bind CBOR.string = some "public-key" ∧
            (a.get "alg").bind CBOR.integer = some (-7) then do
          let excluded ← descriptors (request.index 5)
          return { clientHash, relyingParty, user, opts, cp, excluded := excluded.getD [] }
        else .error (.status 0x26)
      else .error (.status 0x14)
  | _, _ => .error (.status 0x14)

namespace MakeParameters

variable (p : MakeParameters) (P : Platform)

/-- A credential that the exclude list names. -/
def excludes (c : FIDOCredential) : Bool := P.same c.rp p.relyingParty ∧ c.id ∈ p.excluded

/-- A credential that a resident one of this request replaces. -/
def replaces (c : FIDOCredential) : Bool :=
  c.discoverable ∧ P.same c.rp p.relyingParty ∧ c.user = p.user

/-- `replacing`. -/
def replacing (existing : List FIDOCredential) : Bool :=
  p.opts.lookup "rk" = some true ∧ existing.any (p.replaces P)

/-- The authenticator data of a new credential.  `UInt8(credential.id.count)` traps from 256 bytes
on, and is taken modulo 256 here; the store's identifiers have 32 bytes. -/
def data (credential : FIDOCredential) (key : CBOR) : Data :=
  authData P p.relyingParty (if p.cp.isSome then 0xc5 else 0x45) ++ List.replicate 16 0 ++
    ([0, UInt8.ofNat credential.id.length] ++ credential.id) ++ key.encoded ++
    (if p.cp.isSome then
      (CBOR.map [(.text "credProtect", .int (Int64.ofInt credential.protection))]).encoded
    else [])

end MakeParameters

/-- The reply of `make`. -/
def attestation (data signature : Data) : CBOR :=
  .map [(.int 1, .text "packed"), (.int 2, .bytes data),
    (.int 3, .map [(.text "alg", .int (-7)), (.text "sig", .bytes signature)])]

section Store

variable {ω : Type} (P : Platform) (store : FIDOKeyStore ω)

/-- `make`, from the capacity check on. -/
def makeNew (request : CBOR) (p : MakeParameters) (tx : FIDOTransaction ω) :
    Act (FIDO2Authenticator ω) CBOR := do
  let name ← fromExcept (label P ((request.index 3).bind (·.get "name")))
  let displayName ← fromExcept (label P ((request.index 3).bind (·.get "displayName")))
  let credential ← onWorld <| store.generate p.relyingParty p.user name displayName
    ((p.opts.lookup "rk").getD false) (max 2 (p.cp.getD 2)) tx
  let key ← fromExcept (publicCOSE credential)
  let signature ← store.signs credential (p.data P credential key ++ p.clientHash) tx
  onWorld tx.check
  onWorld (store.save credential)
  return attestation (p.data P credential key) signature

/-- `make(request, tx)`. -/
def make (request : CBOR) (tx : FIDOTransaction ω) : Act (FIDO2Authenticator ω) CBOR := do
  let p ← fromExcept (makeParameters P request)
  let existing ← onWorld store.credentials
  match existing.find? (p.excludes P) with
  | some credential => do
      -- Existence is disclosed only after the protected key authorizes use.
      let _ ← store.signs credential (authData P p.relyingParty 5 ++ p.clientHash) tx
      throw (.status 0x19)
  | none =>
      if p.replacing P existing ∨ existing.length < maximumCredentials then
        makeNew P store request p tx
      else throw (.status 0x28)

end Store

/-! ### Using credentials -/

/-- The fields of a GetAssertion request. -/
structure AssertionParameters where
  relyingParty : String
  clientHash : Data
  allowed : Option (List Data)
  opts : List (String × Bool)

/-- The field checks of `assertion`. -/
def assertionParameters (P : Platform) (request : CBOR) : Except Thrown AssertionParameters := do
  let relyingParty ← rp (request.index 1)
  let clientHash ← hash (request.index 2)
  let allowed ← descriptors (request.index 3)
  let _ ← extensions (request.index 4)
  let opts ← options P (request.index 5) false
  if (request.index 6).isSome ∨ (request.index 7).isSome then .error (.status 0x2b)
  else return { relyingParty, clientHash, allowed, opts }

namespace AssertionParameters

variable (p : AssertionParameters)

/-- The credentials the request matches: the listed ones, or the discoverable ones. -/
def selects (P : Platform) (c : FIDOCredential) : Bool :=
  P.same c.rp p.relyingParty && match p.allowed with
    | some ids => decide (c.id ∈ ids)
    | none => c.discoverable

/-- A request for pre-flight: no user presence, no user verification. -/
def preflight : Bool := p.opts.lookup "up" = some false ∧ p.opts.lookup "uv" ≠ some true

/-- The flags of an assertion: UV, and UP unless it was declined. -/
def flags : UInt8 := if p.opts.lookup "up" = some false then 4 else 5

end AssertionParameters

/-- The credential entry of a reply. -/
def descriptorOf (credential : FIDOCredential) : CBOR :=
  .map [(.text "type", .text "public-key"), (.text "id", .bytes credential.id)]

/-- The pre-flight reply, with the deliberately invalid ECDSA signature (1, 1). -/
def preflightReply (P : Platform) (rp : String) (credential : FIDOCredential) : CBOR :=
  .map [(.int 1, descriptorOf credential), (.int 2, .bytes (authData P rp 0)),
    (.int 3, .bytes [0x30, 6, 2, 1, 1, 2, 1, 1])]

/-- One reply of the signing loop; the first of several carries their number. -/
def assertionReply (data signature : Data) (credential : FIDOCredential) (number : Option Nat) :
    CBOR :=
  .map ([(.int 1, descriptorOf credential), (.int 2, .bytes data), (.int 3, .bytes signature),
    (.int 4, .map [(.text "id", .bytes credential.user), (.text "name", .text credential.name),
      (.text "displayName", .text credential.displayName)])] ++
    match number with
    | some n => [(.int 5, .int (Int64.ofNat n))]
    | none => [])

section Store

variable {ω : Type} (P : Platform) (store : FIDOKeyStore ω)

/-- The loop body of `assertion`, over `count` matches. -/
def assertionStep (p : AssertionParameters) (tx : FIDOTransaction ω) (count : Nat)
    (replies : List CBOR) (credential : FIDOCredential) :
    Act (FIDO2Authenticator ω) (List CBOR) := do
  onWorld tx.check
  let data := authData P p.relyingParty p.flags
  let signature ← store.signs credential (data ++ p.clientHash) tx
  let number := if replies.isEmpty ∧ count > 1 then some count else none
  return replies ++ [assertionReply data signature credential number]

namespace FIDO2Authenticator

/-- `clear()`. -/
def clear (s : FIDO2Authenticator ω) : FIDO2Authenticator ω := { s with next := none }

/-- `assertion(request, channel, tx)`. -/
def assertion (request : CBOR) (channel : String) (tx : FIDOTransaction ω) (now : Nat) :
    Act (FIDO2Authenticator ω) CBOR := do
  let p ← fromExcept (assertionParameters P request)
  let existing ← onWorld store.credentials
  let found := existing.filter (p.selects P)
  if found.isEmpty then throw (.status 0x2e)
  else if p.preflight then
    -- credProtect=3 must not disclose even existence
    match p.allowed, found.find? (·.protection < 3) with
    | some _, some credential => return preflightReply P p.relyingParty credential
    | _, _ => throw (.status 0x2e)
  else do
    let replies ← found.foldlM (assertionStep P store p tx found.length) []
    match replies with
    | [] => throw .other -- `removeFirst()` of no replies: there is one for each match
    | first :: rest => do
        modify fun s =>
          if rest.isEmpty then s else { s with next := some ⟨channel, now + 30000, rest⟩ }
        return first

/-- GetNextAssertion. -/
def nextAssertion (channel : String) (now : Nat) : Act (FIDO2Authenticator ω) CBOR := do
  let s ← get
  match s.next with
  | some ⟨c, deadline, first :: rest⟩ =>
      if c = channel ∧ now < deadline then do
        set { s with next := if rest.isEmpty then none else some ⟨c, deadline, rest⟩ }
        return first
      else do
        set s.clear
        throw (.status 0x30)
  | _ => do
      set s.clear
      throw (.status 0x30)

/-- The `switch` of `process`. -/
def perform (command : UInt8) (body : Data) (channel : String) (tx : FIDOTransaction ω)
    (now : Nat) : Act (FIDO2Authenticator ω) CBOR :=
  if command = 0x04 then
    if body = [] then return info else throw (.status 0x03)
  else if command = 0x01 ∨ command = 0x02 then do
    let request ← fromExcept (CBOR.decode body)
    if request.fields.isNone then throw (.status 0x11)
    else if command = 0x01 then make P store request tx
    else assertion P store request channel tx now
  else if command = 0x08 then
    if body = [] then nextAssertion channel now else throw (.status 0x03)
  else throw (.status 0x01)

/-- The body of `process` under its `do`. -/
def respond (message : Data) (channel : String) (tx : FIDOTransaction ω) (now : Nat) :
    Act (FIDO2Authenticator ω) Data := do
  onWorld tx.check
  match message with
  | [] => throw (.status 0x03)
  | command :: body =>
      if message.length ≤ maximumMessage then do
        modify fun s => if command ≠ 0x08 then s.clear else s
        let result ← perform P store command body channel tx now
        onWorld tx.check
        if (0 :: result.encoded).length ≤ maximumMessage then return 0 :: result.encoded
        else throw (.status 0x15)
      else throw (.status 0x03)

/-- The status byte of a thrown error. -/
def status : Thrown → UInt8
  | .status code => code
  | .other => 0x7f

/-- `process(message, channel:, transaction:)`: the response, and the authenticator after it. -/
def process (message : Data) (channel : String) (tx : FIDOTransaction ω) (now : Nat)
    (s : FIDO2Authenticator ω) : Data × FIDO2Authenticator ω :=
  match (respond P store message channel tx now).run s with
  | .ok response s' => (response, s')
  | .error e s' => ([status e], s'.clear)

end FIDO2Authenticator

end Store

/-! ### Rules -/

section Rules

variable {ω σ α : Type}

/-- What is done to the world leaves the authenticator's own state. -/
@[simp] theorem wp_onWorld {x : Act ω α} {Q : α → FIDO2Authenticator ω → Prop}
    {E : Thrown → FIDO2Authenticator ω → Prop} {s : FIDO2Authenticator ω} :
    wp (onWorld x) Q E s ↔
      wp x (fun a w => Q a { s with world := w }) (fun e w => E e { s with world := w }) s.world := by
  simp only [wp, onWorld, EStateM.run]
  cases x s.world <;> rfl

/-- Signing is done to the world. -/
@[simp] theorem wp_signs {store : FIDOKeyStore ω} {c : FIDOCredential} {d : Data}
    {tx : FIDOTransaction ω} {Q : Data → FIDO2Authenticator ω → Prop}
    {E : Thrown → FIDO2Authenticator ω → Prop} {s : FIDO2Authenticator ω} :
    wp (store.signs c d tx) Q E s ↔ wp (store.sign c d tx)
      (fun sig w => Q sig { s with world := w, calls := s.calls ++ [⟨c, d, .ok sig⟩] })
      (fun e w => E e { s with world := w, calls := s.calls ++ [⟨c, d, .error e⟩] }) s.world := by
  simp only [wp, FIDOKeyStore.signs, EStateM.run]
  cases store.sign c d tx s.world <;> rfl

theorem run_onWorld_eq_ok {x : Act ω α} {s s' : FIDO2Authenticator ω} {a : α} :
    (onWorld x).run s = .ok a s' ↔ ∃ w, x.run s.world = .ok a w ∧ s' = { s with world := w } := by
  simp only [onWorld, EStateM.run]
  cases x s.world with
  | ok b w => simp [and_assoc, eq_comm]
  | error e w => simp

theorem run_signs_eq_ok {store : FIDOKeyStore ω} {c : FIDOCredential} {d sig : Data}
    {tx : FIDOTransaction ω} {s s' : FIDO2Authenticator ω} :
    (store.signs c d tx).run s = .ok sig s' ↔ ∃ w, (store.sign c d tx).run s.world = .ok sig w ∧
      s' = { s with world := w, calls := s.calls ++ [⟨c, d, .ok sig⟩] } := by
  simp only [FIDOKeyStore.signs, EStateM.run]
  cases store.sign c d tx s.world with
  | ok b w =>
      constructor
      · rintro ⟨⟩
        exact ⟨w, rfl, rfl⟩
      · rintro ⟨_, ⟨⟩, rfl⟩
        rfl
  | error e w => simp

end Rules

/-! ### What accepted requests satisfy -/

/-- A hash is 32 bytes. -/
theorem hash_eq_ok {value : Option CBOR} {d : Data} (h : hash value = .ok d) :
    value = some (.bytes d) ∧ d.length = 32 := by
  match value with
  | some (.bytes d') =>
      simp only [hash] at h
      split at h <;> simp_all
  | none | some (.int _) | some (.text _) | some (.bool _) | some (.array _) | some (.map _) =>
      simp [hash] at h

/-- A relying party is a text of the form that is checked. -/
theorem rp_eq_ok {value : Option CBOR} {text : String} (h : rp value = .ok text) :
    value = some (.text text) ∧ rpText text := by
  match value with
  | some (.text text') =>
      simp only [rp] at h
      split at h <;> simp_all
  | none | some (.int _) | some (.bytes _) | some (.bool _) | some (.array _) | some (.map _) =>
      simp [rp] at h

/-- A letter or digit is ASCII. -/
theorem isAlphanum_ascii {c : Char} (h : c.isAlphanum = true) : c.val < 128 := by
  have hranges : (decide (c.val ≥ 'A'.val ∧ c.val ≤ 'Z'.val) ||
      (decide (c.val ≥ 'a'.val) && decide (c.val ≤ 'z'.val)) ||
      (decide (c.val ≥ '0'.val) && decide (c.val ≤ '9'.val))) = true := h
  simp only [Bool.or_eq_true, Bool.and_eq_true, decide_eq_true_eq] at hranges
  grind

/-- The id of a relying party is in ASCII. -/
theorem rpText.isASCII {text : String} (h : rpText text) : isASCII text = true := by
  obtain ⟨-, -, hall, -⟩ := h
  simp only [Fido.isASCII, List.all_eq_true] at hall ⊢
  intro c hc
  have hchar := hall c hc
  simp only [Bool.or_eq_true, decide_eq_true_eq] at hchar
  obtain (halnum | rfl) | rfl := hchar
  · exact decide_eq_true (isAlphanum_ascii halnum)
  · decide
  · decide

/-- A label has 128 bytes at most. -/
theorem label_eq_ok {P : Platform} {value : Option CBOR} {text : String}
    (h : label P value = .ok text) : (utf8 text).length ≤ 128 := by
  match value with
  | none =>
      cases h
      decide
  | some (.text text') =>
      simp only [label] at h
      split at h <;> simp_all
  | some (.int _) | some (.bytes _) | some (.bool _) | some (.array _) | some (.map _) =>
      simp [label] at h

/-- A protection level is from one to three. -/
theorem extensions_eq_ok {value : Option CBOR} {level : Int}
    (h : extensions value = .ok (some level)) : 1 ≤ level ∧ level ≤ 3 := by
  cases value with
  | none => simp [extensions] at h
  | some v =>
      simp only [extensions] at h
      split at h
      · cases h
      · split at h
        · cases h
        · split at h
          · split at h
            · rename_i hl
              cases h
              exact hl
            · cases h
          · cases h

/-- **The fields of an accepted MakeCredential request.** -/
theorem makeParameters_eq_ok {P : Platform} {request : CBOR} {p : MakeParameters}
    (h : makeParameters P request = .ok p) :
    request.index 1 = some (.bytes p.clientHash) ∧ p.clientHash.length = 32 ∧
      (request.index 2).bind (·.get "id") = some (.text p.relyingParty) ∧
      rpText p.relyingParty ∧ (1 ≤ p.user.length ∧ p.user.length ≤ 64) ∧
      ∀ level, p.cp = some level → 1 ≤ level ∧ level ≤ 3 := by
  simp only [makeParameters] at h
  obtain ⟨clientHash, hh, h⟩ := except_bind_eq_ok.mp h
  obtain ⟨relyingParty, hr, h⟩ := except_bind_eq_ok.mp h
  split at h
  · rename_i user algorithms _ _
    split at h
    · rename_i hu
      obtain ⟨opts, -, h⟩ := except_bind_eq_ok.mp h
      obtain ⟨cp, hcp, h⟩ := except_bind_eq_ok.mp h
      split at h
      · cases h
      · split at h
        · obtain ⟨excluded, -, h⟩ := except_bind_eq_ok.mp h
          cases h
          obtain ⟨h1, h2⟩ := hash_eq_ok hh
          obtain ⟨h3, h4⟩ := rp_eq_ok hr
          refine ⟨h1, h2, h3, h4, ⟨hu.1, hu.2.1⟩, ?_⟩
          rintro level rfl
          exact extensions_eq_ok hcp
        · cases h
    · cases h
  · cases h

/-- **The fields of an accepted GetAssertion request.** -/
theorem assertionParameters_eq_ok {P : Platform} {request : CBOR} {p : AssertionParameters}
    (h : assertionParameters P request = .ok p) :
    request.index 1 = some (.text p.relyingParty) ∧
      rpText p.relyingParty ∧
      request.index 2 = some (.bytes p.clientHash) ∧ p.clientHash.length = 32 := by
  simp only [assertionParameters] at h
  obtain ⟨relyingParty, hr, h⟩ := except_bind_eq_ok.mp h
  obtain ⟨clientHash, hh, h⟩ := except_bind_eq_ok.mp h
  obtain ⟨allowed, -, h⟩ := except_bind_eq_ok.mp h
  obtain ⟨_, -, h⟩ := except_bind_eq_ok.mp h
  obtain ⟨opts, -, h⟩ := except_bind_eq_ok.mp h
  split at h
  · cases h
  · cases h
    exact ⟨(rp_eq_ok hr).1, (rp_eq_ok hr).2, hash_eq_ok hh⟩

/-! ### Samples -/

namespace Sample

/-- SHA-256, at the relying parties of the samples; the last is spelt with the Kelvin sign. -/
def sha256 (d : Data) : Data :=
  if d = utf8 "example.com" then
    [0xa3, 0x79, 0xa6, 0xf6, 0xee, 0xaf, 0xb9, 0xa5, 0x5e, 0x37, 0x8c, 0x11, 0x80, 0x34, 0xe2, 0x75,
    0x1e, 0x68, 0x2f, 0xab, 0x9f, 0x2d, 0x30, 0xab, 0x13, 0xd2, 0x12, 0x55, 0x86, 0xce, 0x19, 0x47]
  else if d = utf8 "K.com" then
    [0x62, 0x5e, 0x82, 0x85, 0x34, 0x5f, 0xb0, 0x8c, 0x9e, 0xee, 0x2b, 0xb0, 0x56, 0xa4, 0xe8, 0x9f,
    0x5c, 0xd7, 0xf4, 0x3e, 0xa1, 0x12, 0xc2, 0xc6, 0x9a, 0x25, 0x10, 0xc4, 0xaa, 0xe7, 0x71, 0x1b]
  else if d = utf8 "\u212a.com" then
    [0x5e, 0xa8, 0x9d, 0x72, 0x07, 0x6d, 0xbe, 0x3b, 0xd2, 0x91, 0x79, 0x39, 0x93, 0x53, 0x3d, 0x18,
    0x47, 0x07, 0xa6, 0x5d, 0xc5, 0x2e, 0x57, 0x77, 0x8b, 0x2a, 0xae, 0x07, 0xdc, 0x13, 0xd9, 0xb0]
  else List.replicate 32 0

/-- The sample's hash has 32 bytes. -/
theorem length_sha256 (d : Data) : (sha256 d).length = 32 := by
  unfold sha256
  split_ifs <;> rfl

/-- The text with the Kelvin sign spelt as its canonical equivalent, the letter K. -/
def unkelvin (text : String) : List Char :=
  text.toList.map fun c => if c = '\u212a' then 'K' else c

/-- An ASCII text has no Kelvin sign. -/
theorem unkelvin_ascii {text : String} (h : isASCII text = true) :
    unkelvin text = text.toList := by
  rw [isASCII, List.all_eq_true] at h
  refine (List.map_congr_left fun c hc => if_neg ?_).trans (List.map_id _)
  rintro rfl
  exact absurd (h _ hc) (by decide)

def platform : Platform where
  sha256 := sha256
  length_sha256 := length_sha256
  forbidden := fun c => c.val < 32 ∨ (127 ≤ c.val ∧ c.val < 160)
  order := id
  order_perm := fun _ => .refl _
  same := fun a b => unkelvin a = unkelvin b
  same_refl := fun _ => decide_eq_true rfl
  same_ascii := fun a b ha hb h => by
    have hlist : unkelvin a = unkelvin b := of_decide_eq_true h
    rw [unkelvin_ascii ha, unkelvin_ascii hb] at hlist
    exact String.toList_inj.mp hlist

/-- A transaction that is never stopped. -/
def transaction {ω : Type} : FIDOTransaction ω where
  stopped := fun w => (false, w)
  allowed := fun w => (true, w)

/-- A public key: the generator of P-256. -/
def publicKey : Data :=
  [0x04,
    0x6b, 0x17, 0xd1, 0xf2, 0xe1, 0x2c, 0x42, 0x47, 0xf8, 0xbc, 0xe6, 0xe5, 0x63, 0xa4, 0x40, 0xf2,
    0x77, 0x03, 0x7d, 0x81, 0x2d, 0xeb, 0x33, 0xa0, 0xf4, 0xa1, 0x39, 0x45, 0xd8, 0x98, 0xc2, 0x96,
    0x4f, 0xe3, 0x42, 0xe2, 0xfe, 0x1a, 0x7f, 0x9b, 0x8e, 0xe7, 0xeb, 0x4a, 0x7c, 0x0f, 0x9e, 0x16,
    0x2b, 0xce, 0x33, 0x57, 0x6b, 0x31, 0x5e, 0xce, 0xcb, 0xb6, 0x40, 0x68, 0x37, 0xbf, 0x51, 0xf5]

def credential (n protection : Nat) : FIDOCredential where
  id := List.replicate 31 0 ++ [UInt8.ofNat n]
  rp := "example.com"
  user := [UInt8.ofNat n]
  name := "a"
  displayName := "A"
  discoverable := true
  protection := protection
  publicKey := publicKey
  wrappedKey := [1]

/-- A store that holds the given credentials and signs everything alike. -/
def store (credentials : List FIDOCredential) : FIDOKeyStore Unit where
  credentials := pure credentials
  generate rp user name displayName discoverable protection _ :=
    pure { credential 9 2 with rp, user, name, displayName, discoverable, protection }
  sign _ _ _ := pure [0x30, 6, 2, 1, 7, 2, 1, 7]
  save _ := pure ()

/-- The body of a GetAssertion request for the relying party, with the given further fields. -/
def getAssertionFor (rp : String) (more : List (CBORKey × CBOR)) : Data :=
  (CBOR.map ([(CBORKey.int 1, CBOR.text rp), (.int 2, .bytes (List.replicate 32 7))] ++
    more)).encoded

def getAssertion (more : List (CBORKey × CBOR)) : Data := getAssertionFor "example.com" more

end Sample

end Ashacky.Fido
