import Ashacky.Fido.Store
import Ashacky.Fido.Runs

/-!
# Fido — the replies fit a message

The encoded size of a value, and of the replies that `make` and `assertion` build from records
within the bounds of `credentials()` and signatures of at most 72 bytes.  They stay below
`maximumMessage`, so the last guard of `process` never fails on them.

* `length_encoded_map`: a dictionary takes its head and its entries, in whatever order.
* `assertionReply_fits`, `attestation_fits`.
-/

namespace Ashacky.Fido
open Ashacky.Support

/-! ### Sizes of encoded values -/

/-- A small argument stands in the first byte. -/
theorem length_head_of_lt (major : UInt8) {n : Nat} (h : n < 24) : (head major n).length = 1 := by
  rw [head, if_pos h]
  rfl

/-- An argument of eight bits takes two bytes. -/
theorem length_head_le_two (major : UInt8) {n : Nat} (h : n ≤ 0xff) :
    (head major n).length ≤ 2 := by
  rw [head]
  split
  · simp
  · simp

/-- An argument of 16 bits takes three bytes. -/
theorem length_head_le_three (major : UInt8) {n : Nat} (h : n ≤ 0xffff) :
    (head major n).length ≤ 3 := by
  by_cases h1 : n ≤ 0xff
  · exact (length_head_le_two major h1).trans (by decide)
  · rw [head]
    split
    · simp
    · simp

/-- Short bytes take two bytes more. -/
theorem length_encoded_bytes_le {d : Data} (h : d.length ≤ 0xff) :
    (CBOR.bytes d).encoded.length ≤ d.length + 2 := by
  have := length_head_le_two 2 h
  rw [CBOR.encoded, List.length_append]
  omega

theorem length_encoded_text_le {s : String} (h : (utf8 s).length ≤ 0xff) :
    (CBOR.text s).encoded.length ≤ (utf8 s).length + 2 := by
  have := length_head_le_two 3 h
  rw [CBOR.encoded, encodedText, List.length_append]
  omega

/-- A small integer takes three bytes. -/
theorem length_encodedInt_ofNat_le {n : Nat} (h : n ≤ 0xffff) :
    (CBOR.int (Int64.ofNat n)).encoded.length ≤ 3 := by
  have hn : (Int64.ofNat n).toInt = n := Int64.toInt_ofNat_of_lt (by omega)
  rw [CBOR.encoded, encodedInt, hn, if_pos (by omega), Int.toNat_natCast]
  exact length_head_le_three 0 h

/-- The encoded size of the entries. -/
def entriesLength (m : List (CBORKey × CBOR)) : Nat :=
  (m.map fun e => e.1.encoded.length + e.2.encoded.length).sum

@[simp] theorem entriesLength_nil : entriesLength [] = 0 := rfl

@[simp] theorem entriesLength_cons (k : CBORKey) (v : CBOR) (m : List (CBORKey × CBOR)) :
    entriesLength ((k, v) :: m) = k.encoded.length + v.encoded.length + entriesLength m := by
  simp [entriesLength]

/-- **The size of an encoded dictionary** does not depend on the order of its entries. -/
theorem length_encoded_map (m : List (CBORKey × CBOR)) :
    (CBOR.map m).encoded.length = (head 5 m.length).length + entriesLength m := by
  have hperm : ((encodedPairs m).insertionSort KeyLe).Perm (encodedPairs m) :=
    List.perm_insertionSort KeyLe _
  rw [CBOR.encoded, List.length_append, (hperm.flatMap_right _).length_eq, encodedPairs_eq,
    List.length_flatMap, List.map_map]
  simp [entriesLength, Function.comp_def]

/-! ### Replies -/

/-- The authenticator data take 37 bytes. -/
theorem length_authData (P : Platform) (rp : String) (flags : UInt8) :
    (authData P rp flags).length = 37 := by
  rw [authData, List.length_append, P.length_sha256]
  rfl

/-- A descriptor takes 54 bytes at most. -/
theorem length_descriptorOf {c : FIDOCredential} (h : c.InBounds) :
    (descriptorOf c).encoded.length ≤ 54 := by
  have hid := length_encoded_bytes_le (d := c.id) (by rw [h.1]; decide)
  have hkeys : (CBORKey.text "type").encoded.length = 5 ∧ (CBORKey.text "id").encoded.length = 3 ∧
      (CBOR.text "public-key").encoded.length = 11 := by
    decide +kernel
  rw [h.1] at hid
  rw [descriptorOf, length_encoded_map, length_head_of_lt 5 (by simp)]
  simp only [entriesLength_cons, entriesLength_nil, hkeys]
  omega

/-- A user entity takes 347 bytes at most. -/
theorem length_userEntity {c : FIDOCredential} (h : c.InBounds) :
    (CBOR.map [(.text "id", .bytes c.user), (.text "name", .text c.name),
      (.text "displayName", .text c.displayName)]).encoded.length ≤ 347 := by
  obtain ⟨-, -, ⟨-, huser⟩, -, -, hname, hdisplay, -⟩ := h
  have h1 := length_encoded_bytes_le (d := c.user) (by omega)
  have h2 := length_encoded_text_le (s := c.name) (by omega)
  have h3 := length_encoded_text_le (s := c.displayName) (by omega)
  have hkeys : (CBORKey.text "id").encoded.length = 3 ∧ (CBORKey.text "name").encoded.length = 5 ∧
      (CBORKey.text "displayName").encoded.length = 12 := by
    decide +kernel
  rw [length_encoded_map, length_head_of_lt 5 (by simp)]
  simp only [entriesLength_cons, entriesLength_nil, hkeys]
  omega

/-- **The replies of `assertion` fit**, for records within the bounds. -/
theorem assertionReply_fits {data signature : Data} {c : FIDOCredential} {number : Option Nat}
    (hd : data.length = 37) (hs : signature.length ≤ 72) (hc : c.InBounds)
    (hn : ∀ n, number = some n → n ≤ 256) :
    (0 :: (assertionReply data signature c number).encoded).length ≤ maximumMessage := by
  have h1 := length_descriptorOf hc
  have h2 := length_encoded_bytes_le (d := data) (by omega)
  have h3 := length_encoded_bytes_le (d := signature) (by omega)
  have h4 := length_userEntity hc
  have hkeys : (CBORKey.int 1).encoded.length = 1 ∧ (CBORKey.int 2).encoded.length = 1 ∧
      (CBORKey.int 3).encoded.length = 1 ∧ (CBORKey.int 4).encoded.length = 1 ∧
      (CBORKey.int 5).encoded.length = 1 := by
    decide +kernel
  cases number with
  | none =>
      rw [List.length_cons, assertionReply, length_encoded_map, length_head_of_lt 5 (by simp),
        maximumMessage]
      simp only [List.append_nil, entriesLength_cons, entriesLength_nil, hkeys]
      omega
  | some n =>
      have h5 := length_encodedInt_ofNat_le (n := n) ((hn n rfl).trans (by decide))
      rw [List.length_cons, assertionReply, length_encoded_map, length_head_of_lt 5 (by simp),
        maximumMessage]
      simp only [List.cons_append, List.nil_append, entriesLength_cons, entriesLength_nil, hkeys]
      omega

/-- A public key takes 77 bytes at most. -/
theorem length_publicCOSE {c : FIDOCredential} {key : CBOR} (h : publicCOSE c = .ok key) :
    key.encoded.length ≤ 77 := by
  simp only [publicCOSE] at h
  split at h
  · rename_i hk
    cases h
    have hx := length_encoded_bytes_le (d := slice c.publicKey 1 33) (by rw [length_slice, hk.1]; decide)
    have hy := length_encoded_bytes_le (d := slice c.publicKey 33 65)
      (by rw [length_slice, hk.1]; decide)
    have hkeys : (CBORKey.int 1).encoded.length = 1 ∧ (CBORKey.int 3).encoded.length = 1 ∧
        (CBORKey.int (-1)).encoded.length = 1 ∧ (CBORKey.int (-2)).encoded.length = 1 ∧
        (CBORKey.int (-3)).encoded.length = 1 ∧ (CBOR.int 2).encoded.length = 1 ∧
        (CBOR.int (-7)).encoded.length = 1 ∧ (CBOR.int 1).encoded.length = 1 := by
      decide +kernel
    rw [length_slice, hk.1] at hx hy
    rw [length_encoded_map, length_head_of_lt 5 (by simp)]
    simp only [entriesLength_cons, entriesLength_nil, hkeys]
    omega
  · cases h

/-- The data of a new credential take 178 bytes at most. -/
theorem length_data {P : Platform} {p : MakeParameters} {c : FIDOCredential} {key : CBOR}
    (hid : c.id.length = 32) (hp : 2 ≤ c.protection ∧ c.protection ≤ 3)
    (hk : publicCOSE c = .ok key) : (p.data P c key).length ≤ 178 := by
  have hkey := length_publicCOSE hk
  have hcp : (CBOR.map [(.text "credProtect", .int (Int64.ofInt c.protection))]).encoded.length ≤
      14 := by
    have : c.protection = 2 ∨ c.protection = 3 := by omega
    rcases this with h | h <;> rw [h] <;> decide +kernel
  rw [MakeParameters.data]
  simp only [List.length_append, length_authData, List.length_replicate, List.length_cons,
    List.length_nil, hid]
  split
  · omega
  · simp only [List.length_nil]
    omega

/-- **The reply of `make` fits.** -/
theorem attestation_fits {data signature : Data} (hd : data.length ≤ 178)
    (hs : signature.length ≤ 72) :
    (0 :: (attestation data signature).encoded).length ≤ maximumMessage := by
  have h1 := length_encoded_bytes_le (d := data) (by omega)
  have h2 := length_encoded_bytes_le (d := signature) (by omega)
  have hkeys : (CBORKey.int 1).encoded.length = 1 ∧ (CBORKey.int 2).encoded.length = 1 ∧
      (CBORKey.int 3).encoded.length = 1 ∧ (CBORKey.text "alg").encoded.length = 4 ∧
      (CBORKey.text "sig").encoded.length = 4 ∧ (CBOR.text "packed").encoded.length = 7 ∧
      (CBOR.int (-7)).encoded.length = 1 := by
    decide +kernel
  rw [List.length_cons, attestation, length_encoded_map, length_head_of_lt 5 (by simp)]
  simp only [entriesLength_cons, entriesLength_nil, length_encoded_map, hkeys]
  rw [length_head_of_lt 5 (by simp), maximumMessage]
  omega

end Ashacky.Fido
