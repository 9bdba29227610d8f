import Ashacky.Support.Bytes

/-!
# Support — Access

Code that reads bytes of a memory by their addresses.  It keeps the addresses it has read, and an
address outside the memory stops it.

* `ReadsIn`: the code has a result, and reads only addresses from `lo` up to `hi`.
* `ReadsIn.bind`, `ReadsIn.fails`: the rules for a sequence.
* `readsIn_load`, `readsIn_loads`: one byte, and some in a row.
-/

namespace Ashacky.Support

variable {ε α β : Type}

/-- Why code stops. -/
inductive Access.Stop (ε : Type) where
  | error (e : ε)
  /-- There is no byte at this address. -/
  | fault (address : Nat)

/-- Code that reads, with the addresses read so far. -/
abbrev Access (ε α : Type) := EStateM (Access.Stop ε) (List Nat) α

namespace Access

/-- Stop with an error. -/
def fail (e : ε) : Access ε α := throw (.error e)

/-- The byte at an address. -/
def load (memory : Data) (i : Nat) : Access ε UInt8 := do
  modify (· ++ [i])
  match memory[i]? with
  | some b => pure b
  | none => throw (.fault i)

/-- The bytes from an address on. -/
def loads (memory : Data) : Nat → Nat → Access ε Data
  | _, 0 => pure []
  | i, n + 1 => do
      let b ← load memory i
      let rest ← loads memory (i + 1) n
      return b :: rest

/-- How code ends that does not fault. -/
def ended : Except ε α → List Nat → EStateM.Result (Access.Stop ε) (List Nat) α
  | .ok a, log => .ok a log
  | .error e, log => .error (.error e) log

end Access

open Access

/-- The code ends with the result, and reads only addresses from `lo` up to `hi`. -/
def ReadsIn (lo hi : Nat) (x : Access ε α) (r : Except ε α) : Prop :=
  ∀ log, ∃ addresses, (∀ i ∈ addresses, lo ≤ i ∧ i < hi) ∧ x.run log = ended r (log ++ addresses)

section Rules
variable {lo hi : Nat} {x : Access ε α} {f : α → Access ε β} {r : Except ε α} {r' : Except ε β}
  {memory : Data}

/-- An answer reads nothing. -/
theorem readsIn_pure (a : α) : ReadsIn lo hi (pure a : Access ε α) (.ok a) :=
  fun log => ⟨[], nofun, by rw [List.append_nil]; rfl⟩

theorem readsIn_fail (e : ε) : ReadsIn lo hi (fail e : Access ε α) (.error e) :=
  fun log => ⟨[], nofun, by rw [List.append_nil]; rfl⟩

/-- Reads in a row stay between the same bounds. -/
theorem ReadsIn.bind {a : α} (hx : ReadsIn lo hi x (.ok a)) (hf : ReadsIn lo hi (f a) r') :
    ReadsIn lo hi (x >>= f) r' := by
  intro log
  obtain ⟨first, hfirst, hrun⟩ := hx log
  obtain ⟨later, hlater, hrun'⟩ := hf (log ++ first)
  refine ⟨first ++ later, fun i hi => ?_, ?_⟩
  · rcases List.mem_append.mp hi with hi | hi
    · exact hfirst i hi
    · exact hlater i hi
  · rw [EStateM.run_bind, hrun, ← List.append_assoc]
    exact hrun'

/-- A failure ends the reads. -/
theorem ReadsIn.fails {e : ε} (hx : ReadsIn lo hi x (.error e)) : ReadsIn lo hi (x >>= f) (.error e) := by
  intro log
  obtain ⟨addresses, hin, hrun⟩ := hx log
  refine ⟨addresses, hin, ?_⟩
  rw [EStateM.run_bind, hrun]
  rfl

/-- A sequence ends as its parts do. -/
theorem ReadsIn.andThen {g : α → Except ε β} (hx : ReadsIn lo hi x r)
    (hf : ∀ a, r = .ok a → ReadsIn lo hi (f a) (g a)) : ReadsIn lo hi (x >>= f) (r >>= g) := by
  cases r with
  | ok a => exact hx.bind (hf a rfl)
  | error e => exact hx.fails

/-- Reads between bounds are reads between wider ones. -/
theorem ReadsIn.mono {lo' hi' : Nat} (hx : ReadsIn lo hi x r) (hlo : lo' ≤ lo) (hhi : hi ≤ hi') :
    ReadsIn lo' hi' x r := by
  intro log
  obtain ⟨addresses, hin, hrun⟩ := hx log
  exact ⟨addresses, fun i hi => ⟨hlo.trans (hin i hi).1, (hin i hi).2.trans_le hhi⟩, hrun⟩

/-- A byte between the bounds can be read. -/
theorem readsIn_load {i : Nat} {b : UInt8} (hlo : lo ≤ i) (hhi : i < hi) (hb : memory[i]? = some b) :
    ReadsIn lo hi (load memory i : Access ε UInt8) (.ok b) := by
  intro log
  refine ⟨[i], fun j hj => ?_, ?_⟩
  · obtain rfl := List.mem_singleton.mp hj
    exact ⟨hlo, hhi⟩
  · rw [load, EStateM.run_bind, hb]
    rfl

theorem readsIn_loads {i n : Nat} (hlo : lo ≤ i) (hhi : i + n ≤ hi) (hin : i + n ≤ memory.length) :
    ReadsIn lo hi (loads memory i n : Access ε Data) (.ok (slice memory i (i + n))) := by
  induction n generalizing i with
  | zero =>
      have hnone : slice memory i (i + 0) = [] := by simp [slice]
      rw [hnone]
      exact readsIn_pure []
  | succ n ih =>
      have hlt : i < memory.length := by omega
      have hcons : slice memory i (i + (n + 1)) = memory[i] :: slice memory (i + 1) (i + 1 + n) := by
        rw [slice, slice, List.drop_eq_getElem_cons hlt, Nat.add_sub_cancel_left, Nat.add_sub_cancel_left,
          List.take_succ_cons]
      rw [hcons, loads]
      refine (readsIn_load hlo (by omega) (List.getElem?_eq_getElem hlt)).bind ?_
      exact (ih (by omega) (by omega) (by omega)).bind (readsIn_pure _)

end Rules

end Ashacky.Support
