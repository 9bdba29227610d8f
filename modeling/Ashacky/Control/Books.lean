import Mathlib.Data.List.Forall2
import Ashacky.Control.Clients

/-!
# Control — the books of the broker

`clients`, `pending`, `counter` and `outgoing`, and what each method of the broker does to them.

* `Broker.Books`: an id is pending for a client exactly when the client's record has that id and
  waits for its response; ids have one client; there are at most 32 clients, and the queue for the
  port is bounded.
* `readClient_books`: reading a client keeps the books, also when it raises halfway.
* `readPort_books`: so does reading the port; if that raises, `close` makes them good.

A client must be `Readable` to be read: one that was told that there is no session could otherwise
be numbered with that response still queued.
-/

namespace Ashacky.Control
open Ashacky.Support

/-- What the selector waits for on a client: `accept` registers it for reading, and `respond`, which
gives it output, for writing. -/
inductive Interest where
  | read
  | write
  deriving DecidableEq

def Record.interest (r : Record) : Interest := if r.output.isEmpty then .read else .write

/-- Reading the client cannot number it behind a queued response. -/
def Record.Readable (r : Record) : Prop := r.output = [] ∨ r.id.isSome

/-- A client that is selected for reading can be read. -/
theorem Record.Readable.of_interest {r : Record} (h : r.interest = .read) : r.Readable := by
  rw [Record.interest] at h
  split at h
  · next hout => exact .inl (List.isEmpty_iff.mp hout)
  · cases h

/-- The value that `send` is given, with the session it adds. -/
def GuestFrame.body : GuestFrame → Object
  | .hello nonce token => [("type", .str "hello"), ("nonce", .str nonce), ("token", .str token)]
  | .request r =>
      [("type", .str "request"), ("id", .int r.id), ("service", .str r.service.name),
        ("payload", .obj r.payload), ("session", .str r.session)]

namespace Broker

/-- `close`. -/
def close (b : Broker) : Broker :=
  b.clients.foldl (fun b e => b.closeClient e.1) { b with session := none }

/-- The client's record has the id, and no response is queued for it. -/
def Waits (b : Broker) (id : Int) (client : Nat) : Prop :=
  ∃ r, b.clients.lookup client = some r ∧ r.id = some id ∧ r.output = []

/-- What holds of the books. -/
structure Books (b : Broker) : Prop where
  pending : ∀ id client, b.pending.lookup id = some client ↔ b.Waits id client
  counted : ∀ client r id, b.clients.lookup client = some r → r.id = some id → id ≤ b.counter
  own : ∀ client client' r r' id, b.clients.lookup client = some r →
    b.clients.lookup client' = some r' → r.id = some id → r'.id = some id → client = client'
  young : ∀ client r, b.clients.lookup client = some r → client < b.accepted
  few : b.clients.length ≤ 32
  room : b.outgoing.length ≤ maxQueue

/-- Every pending id belongs to the record of its client. -/
def Owned (b : Broker) : Prop :=
  ∀ id client, b.pending.lookup id = some client →
    ∃ r, b.clients.lookup client = some r ∧ r.id = some id

/-- Books that hold have each pending id with its client. -/
theorem Books.owned {b : Broker} (h : b.Books) : b.Owned := by
  intro id client hp
  obtain ⟨r, hr, hid, -⟩ := (h.pending id client).mp hp
  exact ⟨r, hr, hid⟩

/-! ### Closing -/

section

variable {b b' : Broker}

/-- Closing a client removes its record, and no other. -/
theorem clients_closeClient (b : Broker) (client : Nat) :
    (b.closeClient client).clients = b.clients.filter (·.1 ≠ client) := by
  rw [closeClient]
  split
  · rename_i hnone
    refine (List.filter_eq_self.mpr ?_).symm
    intro e he
    have hne : client ≠ e.1 := by simpa using List.lookup_eq_none_iff.mp hnone e he
    simpa using hne.symm
  · rfl

/-- The record of a closed client is gone, and the others stand. -/
theorem lookup_closeClient (b : Broker) (client other : Nat) :
    (b.closeClient client).clients.lookup other =
      if other = client then none else b.clients.lookup other := by
  rw [clients_closeClient, lookup_filter_ne]

/-- The id of a closed client is no longer pending. -/
theorem pending_closeClient (b : Broker) (client : Nat) (id : Int) :
    (b.closeClient client).pending.lookup id =
      if (b.clients.lookup client).bind Record.id = some id then none else b.pending.lookup id := by
  rw [closeClient]
  cases hc : b.clients.lookup client with
  | none => simp
  | some r =>
      cases hid : r.id with
      | none => simp [hid]
      | some id' =>
          simp only [hid, Option.bind_some, Option.some.injEq]
          rw [lookup_filter_ne]
          by_cases heq : id = id'
          · rw [if_pos heq, if_pos heq.symm]
          · rw [if_neg heq, if_neg (Ne.symm heq)]

/-- Closing a client touches neither what was sent nor the counters. -/
theorem closeClient_fields (b : Broker) (client : Nat) :
    (b.closeClient client).sent = b.sent ∧ (b.closeClient client).outgoing = b.outgoing ∧
      (b.closeClient client).counter = b.counter ∧
      (b.closeClient client).accepted = b.accepted := by
  rw [closeClient]
  split <;> exact ⟨rfl, rfl, rfl, rfl⟩

/-- The books are kept when clients leave or their records change but for the id, if the pending
ids are right. -/
theorem Books.of_records (h : b.Books)
    (hp : ∀ id client, b'.pending.lookup id = some client ↔ b'.Waits id client)
    (hrec : ∀ {client r'}, b'.clients.lookup client = some r' →
      ∃ r, b.clients.lookup client = some r ∧ r'.id = r.id)
    (hc : b'.counter = b.counter) (ha : b'.accepted = b.accepted)
    (hl : b'.clients.length ≤ b.clients.length) (ho : b'.outgoing = b.outgoing) : b'.Books := by
  refine ⟨hp, ?_, ?_, ?_, hl.trans h.few, ho ▸ h.room⟩
  · intro client r' id hr' hid'
    obtain ⟨r, hr, hid⟩ := hrec hr'
    exact hc ▸ h.counted client r id hr (hid ▸ hid')
  · intro c c' r₁ r₂ id h₁ h₂ hid₁ hid₂
    obtain ⟨r, hr, hid⟩ := hrec h₁
    obtain ⟨r', hr', hid'⟩ := hrec h₂
    exact h.own c c' r r' id hr hr' (hid ▸ hid₁) (hid' ▸ hid₂)
  · intro client r' hr'
    obtain ⟨r, hr, -⟩ := hrec hr'
    exact ha ▸ h.young client r hr

/-- Closing a client keeps the books. -/
theorem Books.closeClient (h : b.Books) (client : Nat) : (b.closeClient client).Books := by
  obtain ⟨-, hout, hcounter, haccepted⟩ := closeClient_fields b client
  -- a record that is left was there before
  have hleft : ∀ {other r}, (b.closeClient client).clients.lookup other = some r →
      other ≠ client ∧ b.clients.lookup other = some r := by
    intro other r hr
    rw [lookup_closeClient] at hr
    split at hr
    · cases hr
    · rename_i hne
      exact ⟨hne, hr⟩
  refine h.of_records ?_ (fun hr => ⟨_, (hleft hr).2, rfl⟩) hcounter haccepted ?_ hout
  · intro id other
    rw [pending_closeClient]
    constructor
    · intro hp
      split at hp
      · cases hp
      · rename_i hid
        obtain ⟨r, hr, hrid, hro⟩ := (h.pending id other).mp hp
        have hne : other ≠ client := by
          rintro rfl
          rw [hr] at hid
          exact hid hrid
        refine ⟨r, ?_, hrid, hro⟩
        rw [lookup_closeClient, if_neg hne, hr]
    · rintro ⟨r, hr, hrid, hro⟩
      obtain ⟨hne, hr⟩ := hleft hr
      rw [if_neg]
      · exact (h.pending id other).mpr ⟨r, hr, hrid, hro⟩
      · intro hid
        obtain ⟨r', hr', hrid'⟩ := Option.bind_eq_some_iff.mp hid
        exact hne (h.own other client r r' id hr hr' hrid hrid')
  · rw [clients_closeClient]
    exact List.length_filter_le _ _

/-- Closing a client leaves every pending id with its client. -/
theorem Owned.closeClient (h : b.Owned) (client : Nat) : (b.closeClient client).Owned := by
  intro id other hp
  rw [pending_closeClient] at hp
  split at hp
  · cases hp
  · rename_i hid
    obtain ⟨r, hr, hrid⟩ := h id other hp
    refine ⟨r, ?_, hrid⟩
    rw [lookup_closeClient, if_neg, hr]
    rintro rfl
    rw [hr] at hid
    exact hid hrid

/-- Closing several clients removes their records. -/
theorem clients_foldl_closeClient (l : List (Nat × Record)) (b : Broker) :
    (l.foldl (fun b e => b.closeClient e.1) b).clients =
      b.clients.filter fun e => e.1 ∉ l.map Prod.fst := by
  induction l generalizing b with
  | nil => simp
  | cons e l ih =>
      rw [List.foldl_cons, ih, clients_closeClient, List.filter_filter]
      refine List.filter_congr fun e' _ => ?_
      rw [Bool.eq_iff_iff]
      simp only [Bool.and_eq_true, decide_eq_true_eq, List.map_cons, List.mem_cons, not_or]
      exact and_comm

/-- What closing clients one after the other preserves. -/
theorem foldl_closeClient {I : Broker → Prop} (hI : ∀ b client, I b → I (b.closeClient client))
    (l : List (Nat × Record)) (h : I b) : I (l.foldl (fun b e => b.closeClient e.1) b) := by
  induction l generalizing b with
  | nil => exact h
  | cons e l ih => exact ih (hI b e.1 h)

/-- Closing the broker leaves no client. -/
theorem clients_close (b : Broker) : b.close.clients = [] := by
  rw [close, clients_foldl_closeClient, List.filter_eq_nil_iff]
  intro e he
  simp only [decide_eq_true_eq, not_not]
  exact List.mem_map_of_mem he

/-- Closing the broker leaves nothing pending. -/
theorem Owned.close (h : b.Owned) : b.close.pending = [] := by
  have howned : b.close.Owned :=
    foldl_closeClient (I := Owned) (fun _ client h => h.closeClient client) _ h
  -- there is no client left that an id could be pending for
  cases hp : b.close.pending with
  | nil => rfl
  | cons e rest =>
      obtain ⟨r, hr, -⟩ := howned e.1 e.2 (by rw [hp, List.lookup_cons, beq_self_eq_true])
      rw [clients_close] at hr
      cases hr

/-- Closing ends the session, and touches only the clients and what is pending. -/
theorem close_eq (b : Broker) :
    b.close = { b with session := none, clients := b.close.clients, pending := b.close.pending } := by
  refine foldl_closeClient (I := fun b' => b' =
    { b with session := none, clients := b'.clients, pending := b'.pending }) ?_ _ rfl
  intro b' client hb'
  rw [closeClient]
  split
  · exact hb'
  · rw [hb']

/-- Closing the broker touches neither what was sent nor the counters. -/
theorem close_fields (b : Broker) :
    b.close.sent = b.sent ∧ b.close.outgoing = b.outgoing ∧ b.close.counter = b.counter ∧
      b.close.accepted = b.accepted := by
  rw [close_eq]
  exact ⟨rfl, rfl, rfl, rfl⟩

/-- The end of a broker in a run of the two ends is this `close`, and the end of the process. -/
theorem Owned.stop_eq (h : b.Owned) : b.stop = { b.close with frames := [], outgoing := [] } := by
  rw [close_eq, clients_close, h.close]
  rfl

/-- The books of a broker that has ended are empty. -/
theorem Owned.books_close (h : b.Owned) (hroom : b.outgoing.length ≤ maxQueue) : b.close.Books := by
  have hnone : ∀ client, b.close.clients.lookup client = none := by
    intro client
    rw [clients_close]
    rfl
  refine ⟨?_, ?_, ?_, ?_, ?_, ?_⟩
  · intro id client
    rw [h.close]
    constructor
    · intro hp
      cases hp
    · rintro ⟨r, hr, -⟩
      rw [hnone] at hr
      cases hr
  · intro client r id hr
    rw [hnone] at hr
    cases hr
  · intro client _ r _ _ hr
    rw [hnone] at hr
    cases hr
  · intro client r hr
    rw [hnone] at hr
    cases hr
  · simp [clients_close]
  · rw [(close_fields b).2.1]
    exact hroom

/-! ### Records -/

/-- A record may change as long as it keeps its id and, if it has one, whether it waits. -/
theorem Books.withRecord (h : b.Books) {client : Nat} {f : Record → Record}
    (hf : ∀ r, b.clients.lookup client = some r →
      (f r).id = r.id ∧ (r.id.isSome → ((f r).output = [] ↔ r.output = []))) :
    (b.withRecord client f).Books := by
  have hback : ∀ {other r'}, (b.withRecord client f).clients.lookup other = some r' →
      ∃ r, b.clients.lookup other = some r ∧ r'.id = r.id ∧
        (r.id.isSome → (r'.output = [] ↔ r.output = [])) := by
    intro other r' hr'
    rw [lookup_withRecord] at hr'
    split at hr'
    · rename_i heq
      obtain ⟨r, hr, rfl⟩ := Option.map_eq_some_iff.mp hr'
      exact ⟨r, heq ▸ hr, hf r hr⟩
    · exact ⟨r', hr', rfl, fun _ => Iff.rfl⟩
  refine h.of_records ?_ (fun hr' => ?_) rfl rfl (List.length_map _).le rfl
  · intro id other
    refine (h.pending id other).trans ?_
    constructor
    · rintro ⟨r, hr, hid, hout⟩
      by_cases heq : other = client
      · subst heq
        obtain ⟨hid', hout'⟩ := hf r hr
        refine ⟨f r, ?_, hid'.trans hid, (hout' (by rw [hid]; rfl)).mpr hout⟩
        rw [lookup_withRecord, if_pos rfl, hr]
        rfl
      · refine ⟨r, ?_, hid, hout⟩
        rw [lookup_withRecord, if_neg heq, hr]
    · rintro ⟨r', hr', hid', hout'⟩
      obtain ⟨r, hr, hid, hout⟩ := hback hr'
      rw [hid] at hid'
      exact ⟨r, hr, hid', (hout (by rw [hid']; rfl)).mp hout'⟩
  · obtain ⟨r, hr, hid, -⟩ := hback hr'
    exact ⟨r, hr, hid⟩

/-- The broker in which the request of a client is numbered, and pending. -/
theorem Books.number (h : b.Books) {client : Nat} {f : Record → Record} {r : Record}
    (hr : b.clients.lookup client = some r) (hnone : r.id = none) (hout : r.output = [])
    (hid : (f r).id = some (b.counter + 1)) (hf : (f r).output = r.output) :
    ({ b.withRecord client f with
      counter := b.counter + 1
      pending := b.pending ++ [(b.counter + 1, client)] } : Broker).Books := by
  have hlookup : ∀ other, (b.withRecord client f).clients.lookup other =
      if other = client then some (f r) else b.clients.lookup other := by
    intro other
    rw [lookup_withRecord, hr]
    rfl
  have hback : ∀ {other r'}, (b.withRecord client f).clients.lookup other = some r' →
      (other = client ∧ r' = f r) ∨ (other ≠ client ∧ b.clients.lookup other = some r') := by
    intro other r' hr'
    rw [hlookup] at hr'
    split at hr'
    · rename_i heq
      exact .inl ⟨heq, (Option.some.inj hr').symm⟩
    · rename_i hne
      exact .inr ⟨hne, hr'⟩
  -- The counter is above every id that is in use.
  have hfresh : b.pending.lookup (b.counter + 1) = none := by
    cases hp : b.pending.lookup (b.counter + 1) with
    | none => rfl
    | some other =>
        obtain ⟨r', hr', hid', -⟩ := (h.pending _ _).mp hp
        have := h.counted other r' _ hr' hid'
        omega
  refine ⟨?_, ?_, ?_, ?_, ?_, h.room⟩
  · intro id other
    change (b.pending ++ [(b.counter + 1, client)]).lookup id = some other ↔ _
    rw [List.lookup_append]
    -- The new id is this client's alone, and this client has no other.
    by_cases hnew : id = b.counter + 1
    · subst hnew
      rw [hfresh, Option.none_or, List.lookup_cons, beq_self_eq_true]
      constructor
      · intro heq
        cases heq
        exact ⟨f r, (hlookup client).trans (if_pos rfl), hid, hf.trans hout⟩
      · rintro ⟨r', hr', hid', -⟩
        rcases hback hr' with ⟨rfl, -⟩ | ⟨-, hr'⟩
        · rfl
        · have := h.counted other r' _ hr' hid'
          omega
    · have hno : List.lookup id [(b.counter + 1, client)] = none := by simp [hnew]
      rw [hno, Option.or_none, h.pending]
      constructor
      · rintro ⟨r', hr', hid', hout'⟩
        have hne : other ≠ client := by
          rintro rfl
          rw [hr] at hr'
          cases hr'
          rw [hnone] at hid'
          cases hid'
        exact ⟨r', (hlookup other).trans ((if_neg hne).trans hr'), hid', hout'⟩
      · rintro ⟨r', hr', hid', hout'⟩
        rcases hback hr' with ⟨-, rfl⟩ | ⟨-, hr'⟩
        · exact absurd (Option.some.inj (hid'.symm.trans hid)) hnew
        · exact ⟨r', hr', hid', hout'⟩
  · intro other r' id hr' hid'
    change id ≤ b.counter + 1
    rcases hback hr' with ⟨-, rfl⟩ | ⟨-, hr'⟩
    · exact (Option.some.inj (hid'.symm.trans hid)).le
    · exact (h.counted other r' id hr' hid').trans (Int.le_add_one le_rfl)
  · intro c c' r₁ r₂ id h₁ h₂ hid₁ hid₂
    rcases hback h₁ with ⟨rfl, rfl⟩ | ⟨-, h₁⟩
    · rcases hback h₂ with ⟨rfl, -⟩ | ⟨-, h₂⟩
      · rfl
      · have := h.counted c' r₂ id h₂ hid₂
        have := Option.some.inj (hid₁.symm.trans hid)
        omega
    · have hle := h.counted c r₁ id h₁ hid₁
      rcases hback h₂ with ⟨rfl, rfl⟩ | ⟨-, h₂⟩
      · have := Option.some.inj (hid₂.symm.trans hid)
        omega
      · exact h.own c c' r₁ r₂ id h₁ h₂ hid₁ hid₂
  · intro other r' hr'
    rcases hback hr' with ⟨rfl, -⟩ | ⟨-, hr'⟩
    · exact h.young other r hr
    · exact h.young other r' hr'
  · exact (List.length_map _).trans_le h.few

/-- The response is queued for the client that waits for it. -/
theorem Books.answer (h : b.Books) {id : Int} {client : Nat}
    (hp : b.pending.lookup id = some client) {output : Data} (hout : output ≠ []) (deadline : Nat) :
    (({ b with pending := b.pending.filter (·.1 ≠ id) } : Broker).withRecord client
      fun r => { r with output, deadline }).Books := by
  obtain ⟨r, hr, hid, hrout⟩ := (h.pending id client).mp hp
  have hlookup : ∀ other, (({ b with pending := b.pending.filter (·.1 ≠ id) } :
      Broker).withRecord client fun r => { r with output, deadline }).clients.lookup other =
      if other = client then some { r with output, deadline } else b.clients.lookup other := by
    intro other
    rw [lookup_withRecord]
    change (if other = client then (b.clients.lookup client).map _ else _) = _
    rw [hr]
    rfl
  have hback : ∀ {other r'}, (({ b with pending := b.pending.filter (·.1 ≠ id) } :
      Broker).withRecord client fun r => { r with output, deadline }).clients.lookup other =
      some r' → ∃ r₀, b.clients.lookup other = some r₀ ∧ r'.id = r₀.id := by
    intro other r' hr'
    rw [hlookup] at hr'
    split at hr'
    · rename_i heq
      cases hr'
      exact ⟨r, heq ▸ hr, rfl⟩
    · exact ⟨r', hr', rfl⟩
  refine h.of_records ?_ hback rfl rfl (List.length_map _).le rfl
  · intro id' other
    change (b.pending.filter (·.1 ≠ id)).lookup id' = some other ↔ _
    rw [lookup_filter_ne]
    constructor
    · intro hp'
      split at hp'
      · cases hp'
      · rename_i hne
        obtain ⟨r', hr', hid', hout'⟩ := (h.pending id' other).mp hp'
        refine ⟨r', ?_, hid', hout'⟩
        rw [hlookup, if_neg, hr']
        rintro rfl
        rw [hr] at hr'
        cases hr'
        exact hne (Option.some.inj (hid'.symm.trans hid))
    · rintro ⟨r', hr', hid', hout'⟩
      rw [hlookup] at hr'
      split at hr'
      · cases hr'
        exact absurd hout' hout
      · rename_i hne
        rw [if_neg]
        · exact (h.pending id' other).mpr ⟨r', hr', hid', hout'⟩
        · rintro rfl
          exact hne (h.own other client r' r id' hr' hr hid' hid)

/-- A new client has no request. -/
theorem accept_records {service : Service} {uid now client : Nat} {r : Record}
    (hr : (b.accept service uid now).clients.lookup client = some r) :
    b.clients.lookup client = some r ∨ (client = b.accepted ∧ r.id = none) := by
  rw [Broker.accept] at hr
  split at hr
  · exact .inl hr
  · rw [List.lookup_append] at hr
    rcases Option.or_eq_some_iff.mp hr with hr | ⟨-, hr⟩
    · exact .inl hr
    · rw [List.lookup_cons] at hr
      split at hr
      · rename_i heq
        cases hr
        exact .inr ⟨by simpa using heq, rfl⟩
      · cases hr

/-- A new client leaves the records of the others. -/
theorem accept_keeps {service : Service} {uid now client : Nat} {r : Record}
    (hr : b.clients.lookup client = some r) :
    (b.accept service uid now).clients.lookup client = some r := by
  rw [Broker.accept]
  split
  · exact hr
  · rw [List.lookup_append, hr]
    rfl

/-- A new client is counted, and nothing is sent for it. -/
theorem accept_fields (b : Broker) (service : Service) (uid now : Nat) :
    (b.accept service uid now).sent = b.sent ∧
      (b.accept service uid now).outgoing = b.outgoing ∧
      (b.accept service uid now).counter = b.counter ∧
      (b.accept service uid now).pending = b.pending ∧
      (b.accept service uid now).accepted = b.accepted + 1 := by
  rw [Broker.accept]
  split <;> exact ⟨rfl, rfl, rfl, rfl, rfl⟩

/-- A new client keeps the books. -/
theorem Books.accept (h : b.Books) (service : Service) (uid now : Nat) :
    (b.accept service uid now).Books := by
  obtain ⟨-, hout, hcounter, hpending, haccepted⟩ := accept_fields b service uid now
  refine ⟨?_, ?_, ?_, ?_, ?_, hout.symm ▸ h.room⟩
  · intro id client
    rw [hpending]
    refine (h.pending id client).trans ?_
    constructor
    · rintro ⟨r, hr, hrest⟩
      exact ⟨r, accept_keeps hr, hrest⟩
    · rintro ⟨r, hr, hid, hr'⟩
      rcases accept_records hr with hr | ⟨-, hnone⟩
      · exact ⟨r, hr, hid, hr'⟩
      · rw [hnone] at hid
        cases hid
  · intro client r id hr hid
    rw [hcounter]
    rcases accept_records hr with hr | ⟨-, hnone⟩
    · exact h.counted client r id hr hid
    · rw [hnone] at hid
      cases hid
  · intro c c' r r' id hr hr' hid hid'
    rcases accept_records hr with hr | ⟨-, hnone⟩
    · rcases accept_records hr' with hr' | ⟨-, hnone⟩
      · exact h.own c c' r r' id hr hr' hid hid'
      · rw [hnone] at hid'
        cases hid'
    · rw [hnone] at hid
      cases hid
  · intro client r hr
    rw [haccepted]
    rcases accept_records hr with hr | ⟨rfl, -⟩
    · exact (h.young client r hr).trans (Nat.lt_succ_self _)
    · exact Nat.lt_succ_self _
  · rw [Broker.accept]
    split
    · exact h.few
    · rename_i hroom
      rw [not_or, Nat.not_le] at hroom
      change (b.clients ++ _).length ≤ 32
      rw [List.length_append]
      exact hroom.2

/-! ### Reading a client -/

/-- The frames sent in between are queued behind the others. -/
def Sends (P : Python) (b b' : Broker) : Prop :=
  ∃ new frames, List.Forall₂ (fun f x => encode P (GuestFrame.body f) = .ok x) new frames ∧
    b'.sent = b.sent ++ new ∧ b'.outgoing = b.outgoing ++ frames.flatten

variable {P : Python}

/-- What queues nothing sends nothing. -/
theorem Sends.of_eq (hs : b'.sent = b.sent) (ho : b'.outgoing = b.outgoing) : Sends P b b' :=
  ⟨[], [], .nil, by rw [hs, List.append_nil], by rw [ho, List.flatten_nil, List.append_nil]⟩

/-- What is sent in two stretches is sent in both. -/
theorem Sends.trans {b₁ : Broker} (h : Sends P b b₁) (h' : Sends P b₁ b') : Sends P b b' := by
  obtain ⟨new, frames, hf, hs, ho⟩ := h
  obtain ⟨new', frames', hf', hs', ho'⟩ := h'
  refine ⟨new ++ new', frames ++ frames', List.rel_append hf hf', ?_, ?_⟩
  · rw [hs', hs, List.append_assoc]
  · rw [ho', ho, List.flatten_append, List.append_assoc]

/-- What the handler of a client may do: number the client and send its request. -/
structure ReadBy (P : Python) (client : Nat) (b b' : Broker) : Prop where
  sends : Sends P b b'
  others : ∀ other, other ≠ client → b'.clients.lookup other = b.clients.lookup other
  accepted : b'.accepted = b.accepted
  counter : b.counter ≤ b'.counter
  numbered : ∀ r' id, b'.clients.lookup client = some r' → r'.id = some id →
    b.counter < id ∨ ∃ r, b.clients.lookup client = some r ∧ r.id = some id

namespace ReadBy

variable {client : Nat}

theorem refl (b : Broker) : ReadBy P client b b :=
  ⟨.of_eq rfl rfl, fun _ _ => rfl, rfl, le_rfl, fun r _ hr hid => .inr ⟨r, hr, hid⟩⟩

/-- What a handler does can be done in steps. -/
theorem trans {b₁ : Broker} (h : ReadBy P client b b₁) (h' : ReadBy P client b₁ b') :
    ReadBy P client b b' where
  sends := h.sends.trans h'.sends
  others other hne := (h'.others other hne).trans (h.others other hne)
  accepted := h'.accepted.trans h.accepted
  counter := h.counter.trans h'.counter
  numbered := by
    intro r' id hr' hid'
    rcases h'.numbered r' id hr' hid' with hlt | ⟨r₁, hr₁, hid₁⟩
    · exact .inl (h.counter.trans_lt hlt)
    · exact h.numbered r₁ id hr₁ hid₁

/-- A handler may close its client. -/
theorem closeClient (b : Broker) (client : Nat) : ReadBy P client b (b.closeClient client) := by
  obtain ⟨hsent, hout, hcounter, haccepted⟩ := closeClient_fields b client
  refine ⟨.of_eq hsent hout, ?_, haccepted, hcounter.ge, ?_⟩
  · intro other hne
    rw [lookup_closeClient, if_neg hne]
  · intro r' id hr'
    rw [lookup_closeClient, if_pos rfl] at hr'
    cases hr'

/-- The record of the client changes, but not its id. -/
theorem withRecord (b : Broker) {f : Record → Record} (hf : ∀ r, (f r).id = r.id) :
    ReadBy P client b (b.withRecord client f) := by
  refine ⟨.of_eq rfl rfl, ?_, rfl, le_rfl, ?_⟩
  · intro other hne
    rw [lookup_withRecord, if_neg hne]
  · intro r' id hr' hid'
    rw [lookup_withRecord, if_pos rfl] at hr'
    obtain ⟨r, hr, rfl⟩ := Option.map_eq_some_iff.mp hr'
    exact .inr ⟨r, hr, (hf r).symm.trans hid'⟩

end ReadBy

/-- **Forwarding a request** keeps the books, also when `send` raises. -/
theorem forward_books (h : b.Books) {client : Nat} {r : Record}
    (hr : b.clients.lookup client = some r) (hnone : r.id = none) (hout : r.output = [])
    {session : String} (hs : b.session = some session) (service : Service) (value : Object)
    (now : Nat) :
    wp (forward P client service value session now)
      (fun _ b' => b'.Books ∧ ReadBy P client b b' ∧
        ∃ r', b'.clients.lookup client = some r' ∧ r'.id.isSome)
      (fun _ b' => b'.Books ∧ ReadBy P client b b') b := by
  simp only [forward, wp_bind, wp_get, wp_set, wp_modify]
  set f : Record → Record := fun r => { r with
    id := some (b.counter + 1)
    deadline := now + if service = .host ∨ service = .fido2 then 80 else 20 }
  have hbooks := h.number (f := f) hr hnone hout rfl rfl
  have hlookup : (b.withRecord client f).clients.lookup client = some (f r) := by
    rw [lookup_withRecord, if_pos rfl, hr]
    rfl
  have hread : ∀ outgoing sent deadline, Sends P b { b with outgoing, sent } →
      ReadBy P client b { b.withRecord client f with
        counter := b.counter + 1
        pending := b.pending ++ [(b.counter + 1, client)]
        outgoing, sent
        writeDeadline := deadline } := by
    intro outgoing sent deadline hsends
    refine ⟨hsends, ?_, rfl, Int.le_add_one le_rfl, ?_⟩
    · intro other hne
      change (b.withRecord client f).clients.lookup other = _
      rw [lookup_withRecord, if_neg hne]
    · intro r' id hr' hid'
      change (b.withRecord client f).clients.lookup client = _ at hr'
      rw [hlookup] at hr'
      cases hr'
      cases hid'
      exact .inl (Int.lt_succ _)
  refine wp_mono (send_wp ..) ?_ ?_
  · rintro _ _ ⟨data, deadline, hdata, hroom, rfl⟩
    refine ⟨?_, hread _ _ _ ?_, f r, hlookup, rfl⟩
    · refine ⟨hbooks.pending, hbooks.counted, hbooks.own, hbooks.young, hbooks.few, ?_⟩
      rw [List.length_append]
      exact hroom
    · refine ⟨[_], [data], .cons ?_ .nil, rfl, by simp [Broker.withRecord]⟩
      have hsession : (b.withRecord client f).session = some session := hs
      simp only [hsession] at hdata
      exact hdata
  · rintro _ _ rfl
    exact ⟨hbooks, hread _ _ _ (.of_eq rfl rfl)⟩

/-- The loop over the data of a client keeps the books. -/
theorem readParts_books (client now : Nat) (parts : List Data) (h : b.Books) {r : Record}
    (hr : b.clients.lookup client = some r) (hreadable : r.Readable) :
    wp (readParts P client now parts)
      (fun _ b' => b'.Books ∧ ReadBy P client b b')
      (fun _ b' => b'.Books ∧ ReadBy P client b b') b := by
  induction parts generalizing b r with
  | nil => exact ⟨h, .refl b⟩
  | cons part parts ih =>
      simp only [readParts, wp_bind, wp_get]
      rw [hr]
      dsimp only
      rw [wp_bind]
      refine wp_fromExcept (fun fed _ => ?_) fun _ _ => ⟨h, .refl b⟩
      obtain ⟨buffer, value⟩ := fed
      simp only [wp_bind, wp_set]
      set b₁ := b.withRecord client fun r => { r with frames := buffer }
      have hbooks : b₁.Books := h.withRecord fun _ _ => ⟨rfl, fun _ => Iff.rfl⟩
      have hread : ReadBy P client b b₁ := .withRecord b fun _ => rfl
      have hr₁ : b₁.clients.lookup client = some { r with frames := buffer } := by
        rw [lookup_withRecord, if_pos rfl, hr]
        rfl
      split
      · refine wp_mono (ih hbooks hr₁ hreadable) ?_ ?_
        · rintro _ b' ⟨hb', hread'⟩
          exact ⟨hb', hread.trans hread'⟩
        · rintro _ b' ⟨hb', hread'⟩
          exact ⟨hb', hread.trans hread'⟩
      · refine wp_ite (fun _ => ⟨hbooks, hread⟩) fun hid => ?_
        have hnone : r.id = none := by simpa using hid
        have hout : r.output = [] := hreadable.resolve_right (by simp [hnone])
        split
        · refine wp_mono (respond_wp ..) ?_ ?_
          · rintro _ _ (⟨-, rfl⟩ | ⟨output, deadline, -, rfl⟩)
            · exact ⟨hbooks, hread⟩
            · refine ⟨hbooks.withRecord ?_, hread.trans (.withRecord b₁ fun _ => rfl)⟩
              -- a client without a request is pending nowhere
              intro r' hr'
              rw [hr₁] at hr'
              cases hr'
              exact ⟨rfl, fun hsome => by simp [hnone] at hsome⟩
          · rintro _ _ rfl
            exact ⟨hbooks, hread⟩
        · rename_i session hs
          rw [wp_bind]
          refine wp_mono (forward_books hbooks hr₁ hnone hout hs _ _ _) ?_ ?_
          · rintro _ b₂ ⟨hbooks₂, hread₂, r₂, hr₂, hid₂⟩
            refine wp_mono (ih hbooks₂ hr₂ (.inr hid₂)) ?_ ?_
            · rintro _ b' ⟨hb', hread'⟩
              exact ⟨hb', (hread.trans hread₂).trans hread'⟩
            · rintro _ b' ⟨hb', hread'⟩
              exact ⟨hb', (hread.trans hread₂).trans hread'⟩
          · rintro _ b' ⟨hb', hread'⟩
            exact ⟨hb', hread.trans hread'⟩

/-- Reading a client keeps the books, and does no more than a handler may. -/
theorem readClient_books (client : Nat) (data : Data) (now : Nat) (h : b.Books)
    (hreadable : ∀ r, b.clients.lookup client = some r → r.Readable) :
    wp (readClient P client data now)
      (fun _ b' => b'.Books ∧ ReadBy P client b b')
      (fun _ b' => b'.Books ∧ ReadBy P client b b') b := by
  simp only [readClient, wp_bind, wp_get]
  split
  · exact ⟨h, .refl b⟩
  · rename_i r hr
    refine wp_ite (fun _ => ⟨h.closeClient client, .closeClient b client⟩) fun _ => ?_
    refine wp_ite (fun _ => ⟨h, .refl b⟩) fun _ => ?_
    exact readParts_books client now _ h hr (hreadable r hr)

/-- **Reading a client**, with the client closed if that raises. -/
theorem guarded_books (client : Nat) (data : Data) (now : Nat) (h : b.Books)
    (hreadable : ∀ r, b.clients.lookup client = some r → r.Readable) :
    wp (guarded client (readClient P client data now))
      (fun _ b' => b'.Books ∧ ReadBy P client b b')
      (fun _ b' => b'.Books ∧ ReadBy P client b b') b := by
  rw [guarded, wp_tryCatch]
  refine wp_mono (readClient_books client data now h hreadable) (fun _ _ hb => hb) ?_
  rintro e b' ⟨hb', hread⟩
  cases e with
  | caught => exact ⟨hb'.closeClient client, hread.trans (.closeClient b' client)⟩
  | uncaught => exact ⟨hb', hread⟩

/-! ### The port -/

/-- What the other events keep: nothing is numbered or sent, and records keep their id and can be
read as before. -/
structure Keeps (b b' : Broker) : Prop where
  sent : b'.sent = b.sent
  outgoing : b'.outgoing = b.outgoing
  counter : b'.counter = b.counter
  accepted : b'.accepted = b.accepted
  records : ∀ client r', b'.clients.lookup client = some r' →
    ∃ r, b.clients.lookup client = some r ∧ r'.id = r.id ∧ (r.Readable → r'.Readable)

namespace Keeps

/-- What leaves the records and the counters keeps them. -/
theorem of_clients (hs : b'.sent = b.sent) (ho : b'.outgoing = b.outgoing)
    (hc : b'.counter = b.counter) (ha : b'.accepted = b.accepted)
    (hcl : b'.clients = b.clients) : Keeps b b' :=
  ⟨hs, ho, hc, ha, fun _ r hr => ⟨r, hcl ▸ hr, rfl, id⟩⟩

/-- What keeps the records can be done in steps. -/
theorem trans {b₁ : Broker} (h : Keeps b b₁) (h' : Keeps b₁ b') : Keeps b b' where
  sent := h'.sent.trans h.sent
  outgoing := h'.outgoing.trans h.outgoing
  counter := h'.counter.trans h.counter
  accepted := h'.accepted.trans h.accepted
  records := by
    intro client r' hr'
    obtain ⟨r₁, hr₁, hid₁, hread₁⟩ := h'.records client r' hr'
    obtain ⟨r, hr, hid, hread⟩ := h.records client r₁ hr₁
    exact ⟨r, hr, hid₁.trans hid, hread₁ ∘ hread⟩

/-- Closing a client keeps the others. -/
theorem closeClient (b : Broker) (client : Nat) : Keeps b (b.closeClient client) := by
  obtain ⟨hsent, hout, hcounter, haccepted⟩ := closeClient_fields b client
  refine ⟨hsent, hout, hcounter, haccepted, ?_⟩
  intro other r hr
  rw [lookup_closeClient] at hr
  split at hr
  · cases hr
  · exact ⟨r, hr, rfl, id⟩

/-- A change of a record that leaves its id keeps the records. -/
theorem withRecord (b : Broker) (client : Nat) {f : Record → Record}
    (hf : ∀ r, b.clients.lookup client = some r → (f r).id = r.id ∧ (r.Readable → (f r).Readable)) :
    Keeps b (b.withRecord client f) := by
  refine ⟨rfl, rfl, rfl, rfl, ?_⟩
  intro other r' hr'
  rw [lookup_withRecord] at hr'
  split at hr'
  · rename_i heq
    obtain ⟨r, hr, rfl⟩ := Option.map_eq_some_iff.mp hr'
    exact ⟨r, heq ▸ hr, hf r hr⟩
  · exact ⟨r', hr', rfl, id⟩

/-- Closing the broker keeps what it has sent. -/
theorem close (b : Broker) : Keeps b b.close := by
  obtain ⟨hsent, hout, hcounter, haccepted⟩ := close_fields b
  refine ⟨hsent, hout, hcounter, haccepted, ?_⟩
  intro client r hr
  rw [clients_close] at hr
  cases hr

end Keeps

/-- Writing to a client keeps the books. -/
theorem Books.writeClient (h : b.Books) (client count : Nat) : (b.writeClient client count).Books := by
  rw [Broker.writeClient]
  split
  · exact h
  · rename_i record hr
    split
    · exact h.closeClient client
    · rename_i hrest
      refine h.withRecord ?_
      intro r hr'
      rw [hr] at hr'
      cases hr'
      have hne : record.output.drop count ≠ [] := by simpa using hrest
      refine ⟨rfl, fun _ => ⟨fun he => absurd he hne, fun he => ?_⟩⟩
      simp [he] at hne

/-- Writing to a client numbers and sends nothing. -/
theorem Keeps.writeClient (b : Broker) (client count : Nat) :
    Keeps b (b.writeClient client count) := by
  rw [Broker.writeClient]
  split
  · exact .of_clients rfl rfl rfl rfl rfl
  · split
    · exact .closeClient b client
    · refine .withRecord b client ?_
      intro r _
      refine ⟨rfl, ?_⟩
      rintro (hout | hid)
      · exact .inl (by simp [hout])
      · exact .inr hid

/-- The response branch of `receive`.  If `respond` raises, its id is no longer pending, but its
client is still there. -/
theorem receiveResponse_books (h : b.Books) (value : Object) (now : Nat) :
    wp (receiveResponse P value now)
      (fun _ b' => b'.Books ∧ Keeps b b')
      (fun _ b' => b'.Owned ∧ Keeps b b') b := by
  rw [receiveResponse.eq_def]
  split
  · rename_i id payload _ _
    simp only [wp_bind, wp_get]
    split
    · exact ⟨h, .of_clients rfl rfl rfl rfl rfl⟩
    · rename_i client hp
      obtain ⟨r, hr, hid, -⟩ := (h.pending id client).mp hp
      simp only [wp_bind, wp_set, wp_modify]
      refine wp_mono (respond_wp ..) ?_ ?_
      · rintro _ _ (⟨hnone, rfl⟩ | ⟨output, deadline, hout, rfl⟩)
        · rw [show b.clients.lookup client = none from hnone] at hr
          cases hr
        · have hbooks := h.answer hp hout deadline
          have hkeeps : Keeps b (({ b with pending := b.pending.filter (·.1 ≠ id) } :
              Broker).withRecord client fun r => { r with output, deadline }) := by
            have hpop : Keeps b { b with pending := b.pending.filter (·.1 ≠ id) } :=
              .of_clients rfl rfl rfl rfl rfl
            refine hpop.trans (.withRecord _ client ?_)
            intro r' hr'
            rw [show b.clients.lookup client = some r' from hr'] at hr
            cases hr
            exact ⟨rfl, fun _ => .inr (by rw [hid]; rfl)⟩
          split
          · exact ⟨⟨hbooks.pending, hbooks.counted, hbooks.own, hbooks.young, hbooks.few,
              hbooks.room⟩, hkeeps.trans (.of_clients rfl rfl rfl rfl rfl)⟩
          · exact ⟨hbooks, hkeeps⟩
      · rintro _ _ rfl
        refine ⟨?_, .of_clients rfl rfl rfl rfl rfl⟩
        intro id' other hp'
        change (b.pending.filter (·.1 ≠ id)).lookup id' = some other at hp'
        rw [lookup_filter_ne] at hp'
        split at hp'
        · cases hp'
        · exact h.owned id' other hp'
  · exact ⟨h.owned, .of_clients rfl rfl rfl rfl rfl⟩

/-- `receive`, for any value. -/
theorem receive_books (h : b.Books) (token : String) (value : Object) (now : Nat) :
    wp (receive P token value now)
      (fun _ b' => b'.Books ∧ Keeps b b')
      (fun _ b' => b'.Owned ∧ Keeps b b') b := by
  have herror : b.Owned ∧ Keeps b b := ⟨h.owned, .of_clients rfl rfl rfl rfl rfl⟩
  rw [receive.eq_def]
  split
  · simp only [wp_bind, wp_get]
    split
    · simp only [receiveWelcome, wp_bind, wp_get]
      refine wp_ite (fun _ => ?_) fun _ => herror
      split
      · refine wp_ite (fun _ => ?_) fun _ => herror
        exact ⟨⟨h.pending, h.counted, h.own, h.young, h.few, h.room⟩,
          .of_clients rfl rfl rfl rfl rfl⟩
      · exact herror
    · refine wp_ite (fun _ => ?_) fun _ => herror
      exact wp_ite (fun _ => receiveResponse_books h value now) fun _ => herror
  · exact herror

/-- **Reading the port**, with any bytes. -/
theorem readPort_books (token : String) (now : Nat) (parts : List Data) (h : b.Books) :
    wp (readPort P token now parts)
      (fun _ b' => b'.Books ∧ Keeps b b')
      (fun _ b' => b'.Owned ∧ Keeps b b') b := by
  induction parts generalizing b with
  | nil => exact ⟨h, .of_clients rfl rfl rfl rfl rfl⟩
  | cons part parts ih =>
      simp only [readPort, wp_bind, wp_get]
      refine wp_fromExcept (fun fed _ => ?_) fun _ _ =>
        ⟨h.owned, .of_clients rfl rfl rfl rfl rfl⟩
      obtain ⟨buffer, value⟩ := fed
      simp only [wp_set]
      have hbooks : ({ b with frames := buffer } : Broker).Books :=
        ⟨h.pending, h.counted, h.own, h.young, h.few, h.room⟩
      have hkeeps : Keeps b { b with frames := buffer } := .of_clients rfl rfl rfl rfl rfl
      cases value with
      | none =>
          refine wp_mono (ih hbooks) ?_ ?_
          · rintro _ b' ⟨hb', hkeeps'⟩
            exact ⟨hb', hkeeps.trans hkeeps'⟩
          · rintro _ b' ⟨hb', hkeeps'⟩
            exact ⟨hb', hkeeps.trans hkeeps'⟩
      | some value =>
          dsimp only
          rw [wp_bind]
          refine wp_mono (receive_books hbooks token value now) ?_ ?_
          · rintro _ b₁ ⟨hb₁, hkeeps₁⟩
            refine wp_mono (ih hb₁) ?_ ?_
            · rintro _ b' ⟨hb', hkeeps'⟩
              exact ⟨hb', (hkeeps.trans hkeeps₁).trans hkeeps'⟩
            · rintro _ b' ⟨hb', hkeeps'⟩
              exact ⟨hb', (hkeeps.trans hkeeps₁).trans hkeeps'⟩
          · rintro _ b' ⟨hb', hkeeps'⟩
            exact ⟨hb', hkeeps.trans hkeeps'⟩

/-- Deadlines close clients, or end the broker. -/
theorem expire_books (h : b.Books) (now : Nat) :
    wp (expire now) (fun _ b' => b'.Books ∧ Keeps b b') (fun _ b' => b'.Owned ∧ Keeps b b') b := by
  have herror : b.Owned ∧ Keeps b b := ⟨h.owned, .of_clients rfl rfl rfl rfl rfl⟩
  simp only [expire, wp_bind, wp_get]
  refine wp_ite (fun _ => herror) fun _ => wp_ite (fun _ => herror) fun _ => ?_
  refine foldl_closeClient (I := fun b' => b'.Books ∧ Keeps b b') ?_ _ ⟨h, herror.2⟩
  rintro b' client ⟨hb', hkeeps⟩
  exact ⟨hb'.closeClient client, hkeeps.trans (.closeClient b' client)⟩

end

end Broker

end Ashacky.Control
