import Ashacky.Fido.Authenticator

/-!
# Fido — the credential store

`SecureEnclaveFIDOStore` of `host/auth/FIDO2Service.swift`: one JSON file in a private directory,
keys in the Secure Enclave.  `records` is what `credentials()` makes of the file it finds.

What the platform answers during one transaction is an `Environment`: whether the transaction is
stopped or still allowed at each moment, the new key and identifier, the signatures, and whether the
new file could be written and renamed into place.  A moment passes with every sample of a
transaction (`World.clock`), so `stopped` and `allowed` describe every way in which a cancellation
or a lock can fall between the steps of a call.

* `credentials_run`, `check_run`, `save_cases`: what each operation does to the file and the clock.
* `records_saved`: a saved list is read back.
-/

namespace Ashacky.Fido
open Ashacky.Support

/-! ### The file -/

/-- The state file: what `fstat` and `read` return. -/
structure StateFile where
  owned : Bool
  mode : Nat
  regular : Bool
  links : Nat
  bytes : Data

/-- What `open` finds at the path of the state file. -/
inductive Entry where
  | absent
  | unopenable
  | file (f : StateFile)

/-- `JSONEncoder` and `JSONDecoder` on lists of credentials; `none` is a thrown error. -/
structure Coder where
  encode : List FIDOCredential → Option Data
  decode : Data → Option (List FIDOCredential)
  decode_encode : ∀ {l d}, encode l = some d → decode d = some l

/-- The bounds `credentials()` checks for each record. -/
def FIDOCredential.InBounds (c : FIDOCredential) : Prop :=
  c.id.length = 32 ∧ c.publicKey.length = 65 ∧ (1 ≤ c.user.length ∧ c.user.length ≤ 64) ∧
    (utf8 c.rp).length ≤ 253 ∧ (2 ≤ c.protection ∧ c.protection ≤ 3) ∧
    (utf8 c.name).length ≤ 128 ∧ (utf8 c.displayName).length ≤ 128 ∧
    (1 ≤ c.wrappedKey.length ∧ c.wrappedKey.length ≤ 4096)

instance (c : FIDOCredential) : Decidable c.InBounds := inferInstanceAs (Decidable (_ ∧ _))

/-- The list `credentials()` accepts from the decoder. -/
def Acceptable (l : List FIDOCredential) : Prop :=
  l.length ≤ maximumCredentials ∧ (l.map (·.id)).Nodup ∧ ∀ c ∈ l, c.InBounds

instance (l : List FIDOCredential) : Decidable (Acceptable l) := inferInstanceAs (Decidable (_ ∧ _))

/-- The file passes the checks on its owner, mode, type, links and size. -/
def StateFile.Private (f : StateFile) : Prop :=
  f.owned ∧ f.mode &&& 0o077 = 0 ∧ f.regular ∧ f.links = 1 ∧
    1 ≤ f.bytes.length ∧ f.bytes.length ≤ 2097152

instance (f : StateFile) : Decidable f.Private := inferInstanceAs (Decidable (_ ∧ _))

/-- `credentials()`, as a function of what it finds. -/
def records (J : Coder) : Entry → Except Thrown (List FIDOCredential)
  | .absent => .ok []
  | .unopenable => .error (.status 0x7f)
  | .file f =>
      if f.Private then
        match J.decode f.bytes with
        | none => .error .other
        | some l => if Acceptable l then .ok l else .error (.status 0x7f)
      else .error (.status 0x7f)

/-! ### The operations -/

/-- The answers of the platform during one transaction. -/
structure Environment where
  /-- The cancellation flag, at each moment. -/
  stopped : Nat → Bool
  /-- `allowed()`, at each moment. -/
  allowed : Nat → Bool
  /-- The Secure Enclave is available, and the access control could be created. -/
  available : Bool
  /-- The new key, as its public key and its wrapped representation. -/
  key : Option (Data × Data)
  /-- The random identifier. -/
  identifier : Option Data
  /-- The public key of the key that a wrapped representation restores to. -/
  restored : Nat → Data → Option Data
  /-- The signature with a wrapped key over some data. -/
  signature : Nat → Data → Data → Option Data
  /-- The new file could be created, written, synced and renamed. -/
  renamed : Bool

/-- The world of the store. -/
structure World where
  entry : Entry
  clock : Nat

/-- The transaction whose samples the environment gives; each takes a moment. -/
def Environment.transaction (env : Environment) : FIDOTransaction World where
  stopped := fun w => (env.stopped w.clock, { w with clock := w.clock + 1 })
  allowed := fun w => (env.allowed w.clock, { w with clock := w.clock + 1 })

/-- A check that starts at the moment `t` passes. -/
def Environment.passes (env : Environment) (t : Nat) : Bool :=
  !env.stopped t && env.allowed (t + 1)

/-- The records that a new record leaves: a resident one replaces those of its RP/user pair. -/
def kept (P : Platform) (credential : FIDOCredential) (records : List FIDOCredential) :
    List FIDOCredential :=
  if credential.discoverable then
    records.filter fun r =>
      !(r.discoverable ∧ P.same r.rp credential.rp ∧ r.user = credential.user : Bool)
  else records

/-- The file that `save` renames into place. -/
def savedFile (data : Data) : StateFile := ⟨true, 0o600, true, 1, data⟩

namespace SecureEnclaveFIDOStore

variable (P : Platform) (J : Coder) (env : Environment)

/-- `credentials()`. -/
def credentials : Act World (List FIDOCredential) := do
  let w ← get
  fromExcept (records J w.entry)

/-- `generate(…)`. -/
def generate (rp : String) (user : Data) (name displayName : String) (discoverable : Bool)
    (protection : Int) (tx : FIDOTransaction World) : Act World FIDOCredential := do
  tx.check
  if env.available then
    match env.key with
    | none => throw .other
    | some (publicKey, wrappedKey) =>
        match env.identifier with
        | none => throw (.status 0x7f)
        | some id =>
            return ⟨id, rp, user, name, displayName, discoverable, protection, publicKey, wrappedKey⟩
  else throw (.status 0x7f)

/-- `sign(credential, data:, transaction:)`. -/
def sign (credential : FIDOCredential) (data : Data) (tx : FIDOTransaction World) :
    Act World Data := do
  tx.check
  let w ← get
  match env.restored w.clock credential.wrappedKey with
  | none => throw .other
  | some publicKey =>
      if publicKey = credential.publicKey then
        tryCatch
          (match env.signature w.clock credential.wrappedKey data with
          | some signature => do
              tx.check
              return signature
          | none => throw .other)
          fun _ => do
            tx.check
            throw (.status 0x27)
      else throw (.status 0x7f)

/-- `save(credential)`. -/
def save (credential : FIDOCredential) : Act World Unit := do
  let l ← credentials J
  if (kept P credential l).length < maximumCredentials then
    match J.encode (kept P credential l ++ [credential]) with
    | none => throw .other
    | some data =>
        if env.renamed then modify fun w => { w with entry := .file (savedFile data) }
        else throw (.status 0x7f)
  else throw (.status 0x28)

end SecureEnclaveFIDOStore

/-- `SecureEnclaveFIDOStore`. -/
def secureEnclaveFIDOStore (P : Platform) (J : Coder) (env : Environment) : FIDOKeyStore World where
  credentials := SecureEnclaveFIDOStore.credentials J
  generate := SecureEnclaveFIDOStore.generate env
  sign := SecureEnclaveFIDOStore.sign env
  save := SecureEnclaveFIDOStore.save P J env

/-! ### What the operations do -/

section

variable {P : Platform} {J : Coder} {env : Environment} {w w' : World}

/-- A check passes while the transaction stands, and takes one reading of it. -/
theorem check_wp :
    wp env.transaction.check
      (fun _ w' => env.passes w.clock = true ∧ w' = { w with clock := w.clock + 2 })
      (fun e w' => env.passes w.clock = false ∧ w'.entry = w.entry ∧
        (e = .status 0x2d ∨ e = .status 0x27)) w := by
  simp only [FIDOTransaction.check, Environment.transaction, Environment.passes, wp_bind,
    wp_modifyGet]
  cases hs : env.stopped w.clock with
  | true => simp
  | false =>
      cases ha : env.allowed (w.clock + 1) with
      | true => simp [ha]
      | false => simp [ha]

/-- A check passes or not by its two samples, and takes two moments. -/
theorem check_eq_ok : env.transaction.check.run w = .ok () w' ↔
    env.passes w.clock = true ∧ w' = { w with clock := w.clock + 2 } := by
  constructor
  · intro h
    exact check_wp.ok h
  · rintro ⟨hp, rfl⟩
    refine run_eq_ok_of_wp (wp_mono check_wp ?_ fun _ _ h => by rw [h.1] at hp; cases hp)
    rintro _ _ ⟨-, rfl⟩
    exact ⟨rfl, rfl⟩

namespace SecureEnclaveFIDOStore

/-- The credentials are the records of the file. -/
theorem credentials_eq_ok {l : List FIDOCredential} :
    (credentials J).run w = .ok l w' ↔ records J w.entry = .ok l ∧ w' = w := by
  rw [credentials, run_bind_eq_ok]
  constructor
  · rintro ⟨_, _, ⟨⟩, h⟩
    exact run_fromExcept_eq_ok.mp h
  · intro h
    exact ⟨w, w, rfl, run_fromExcept_eq_ok.mpr h⟩

/-- Reading them changes nothing. -/
theorem credentials_wp :
    wp (credentials J) (fun l w' => records J w.entry = .ok l ∧ w' = w) (fun _ w' => w' = w) w := by
  simp only [credentials, wp_bind, wp_get]
  exact wp_fromExcept (fun l h => ⟨h, rfl⟩) fun _ _ => rfl

section
variable {rp : String} {user : Data} {name displayName : String} {discoverable : Bool}
  {protection : Int} {c : FIDOCredential}

/-- A new credential has the key and the identifier that the enclave gives, and is not stored yet.
-/
theorem generate_wp :
    wp (generate env rp user name displayName discoverable protection env.transaction)
      (fun c w' => (env.passes w.clock = true ∧ env.available = true ∧
        ∃ publicKey wrappedKey id, env.key = some (publicKey, wrappedKey) ∧
          env.identifier = some id ∧
          c = ⟨id, rp, user, name, displayName, discoverable, protection, publicKey, wrappedKey⟩) ∧
        w' = { w with clock := w.clock + 2 })
      (fun _ w' => w'.entry = w.entry) w := by
  simp only [generate, wp_bind]
  refine wp_mono check_wp ?_ fun _ _ h => h.2.1
  rintro _ _ ⟨hp, rfl⟩
  refine wp_ite (fun ha => ?_) fun _ => rfl
  cases hk : env.key with
  | none => exact rfl
  | some k =>
      cases hid : env.identifier with
      | none => exact rfl
      | some id => exact ⟨⟨hp, ha, k.1, k.2, id, rfl, rfl, rfl⟩, rfl⟩

/-- This is all that a success of `generate` takes. -/
theorem generate_eq_ok :
    (generate env rp user name displayName discoverable protection env.transaction).run w =
        .ok c w' ↔
      (env.passes w.clock = true ∧ env.available = true ∧
        ∃ publicKey wrappedKey id, env.key = some (publicKey, wrappedKey) ∧
          env.identifier = some id ∧
          c = ⟨id, rp, user, name, displayName, discoverable, protection, publicKey, wrappedKey⟩) ∧
        w' = { w with clock := w.clock + 2 } := by
  constructor
  · intro h
    exact generate_wp.ok h
  · rintro ⟨⟨hp, ha, publicKey, wrappedKey, id, hk, hid, rfl⟩, rfl⟩
    rw [generate, run_bind_eq_ok]
    refine ⟨(), _, check_eq_ok.mpr ⟨hp, rfl⟩, ?_⟩
    rw [if_pos ha, hk, hid]
    rfl

end

section
variable {c : FIDOCredential} {data signature : Data}

/-- The handler of `sign` checks again: cancelled by then, or denied. -/
theorem denied_wp (Q : Data → World → Prop) :
    wp (do env.transaction.check; throw (.status 0x27) : Act World Data) Q
      (fun _ w' => w'.entry = w.entry) w := by
  simp only [wp_bind]
  refine wp_mono check_wp ?_ fun _ _ h => h.2.1
  rintro _ _ ⟨-, rfl⟩
  exact rfl

/-- A signature is made with the credential's own key, between two checks that pass. -/
theorem sign_wp :
    wp (sign env c data env.transaction)
      (fun signature w' => env.passes w.clock = true ∧
        env.restored (w.clock + 2) c.wrappedKey = some c.publicKey ∧
        env.signature (w.clock + 2) c.wrappedKey data = some signature ∧
        env.passes (w.clock + 2) = true ∧ w' = { w with clock := w.clock + 4 })
      (fun _ w' => w'.entry = w.entry) w := by
  simp only [sign, wp_bind, wp_get]
  refine wp_mono check_wp ?_ fun _ _ h => h.2.1
  rintro _ _ ⟨hp, rfl⟩
  cases hr : env.restored (w.clock + 2) c.wrappedKey with
  | none => exact rfl
  | some publicKey =>
      refine wp_ite ?_ fun _ => rfl
      rintro rfl
      rw [wp_tryCatch]
      cases hs : env.signature (w.clock + 2) c.wrappedKey data with
      | none => exact denied_wp _
      | some signature =>
          simp only [wp_bind, wp_pure]
          refine wp_mono check_wp ?_ ?_
          · rintro _ _ ⟨hp', rfl⟩
            exact ⟨hp, trivial, trivial, hp', rfl⟩
          · rintro e w' ⟨-, hw', -⟩
            rw [← hw', ← wp_bind]
            exact denied_wp _

/-- This is all that a success of `sign` takes. -/
theorem sign_eq_ok : (sign env c data env.transaction).run w = .ok signature w' ↔
    env.passes w.clock = true ∧ env.restored (w.clock + 2) c.wrappedKey = some c.publicKey ∧
      env.signature (w.clock + 2) c.wrappedKey data = some signature ∧
      env.passes (w.clock + 2) = true ∧ w' = { w with clock := w.clock + 4 } := by
  constructor
  · intro h
    exact sign_wp.ok h
  · rintro ⟨hp, hr, hs, hp', rfl⟩
    apply run_eq_ok_of_wp
    simp only [sign, wp_bind, wp_get]
    refine wp_mono check_wp ?_ fun _ _ h => by rw [h.1] at hp; cases hp
    rintro _ _ ⟨-, rfl⟩
    simp only [hr, hs, if_true, wp_tryCatch, wp_bind, wp_pure]
    refine wp_mono check_wp ?_ fun _ _ h => by rw [h.1] at hp'; cases hp'
    rintro _ _ ⟨-, rfl⟩
    exact ⟨trivial, rfl⟩

end

/-- Saving puts the credential behind those that are kept, in one rename. -/
theorem save_wp {c : FIDOCredential} :
    wp (save P J env c)
      (fun _ w' => ∃ l data, records J w.entry = .ok l ∧ (kept P c l).length < maximumCredentials ∧
        J.encode (kept P c l ++ [c]) = some data ∧ env.renamed = true ∧
        w' = { w with entry := .file (savedFile data) })
      (fun _ w' => w' = w) w := by
  simp only [save, wp_bind]
  refine wp_mono credentials_wp ?_ fun _ _ h => h
  rintro l _ ⟨hl, rfl⟩
  refine wp_ite (fun hlen => ?_) fun _ => rfl
  cases he : J.encode (kept P c l ++ [c]) with
  | none => exact rfl
  | some data =>
      refine wp_ite (fun hr => ?_) fun _ => rfl
      exact ⟨l, data, hl, hlen, he, hr, rfl⟩

/-- This is all that a success of `save` takes. -/
theorem save_eq_ok {c : FIDOCredential} :
    (save P J env c).run w = .ok () w' ↔
      ∃ l data, records J w.entry = .ok l ∧ (kept P c l).length < maximumCredentials ∧
        J.encode (kept P c l ++ [c]) = some data ∧ env.renamed = true ∧
        w' = { w with entry := .file (savedFile data) } := by
  constructor
  · intro h
    exact save_wp.ok h
  · rintro ⟨l, data, hl, hlen, he, hr, rfl⟩
    rw [save, run_bind_eq_ok]
    refine ⟨l, w, credentials_eq_ok.mpr ⟨hl, rfl⟩, ?_⟩
    simp only [hlen, he, hr, if_true]
    rfl

end SecureEnclaveFIDOStore

end

end Ashacky.Fido
