import Ashacky.Control.Books
import Ashacky.Control.Correlation

/-!
# Control — bookkeeping over the runs of a broker

One broker, over any sequence of its events: clients connect, send, take their output and leave, the
port yields any bytes and takes any number of them, and deadlines pass.

* `Desk`: a broker with what `select` has reported, the ids assigned and the bytes written so far.
* `Desk.Inv.step`: one event keeps the books.
* `broker_bookkeeping`: what holds in every state of every run.

A client is read only when `select` has reported it readable, and `select` waits for output once a
response is queued.
-/

namespace Ashacky.Control
open Ashacky.Support

/-- A broker, with what is known of its past. -/
structure Desk where
  broker : Broker
  alive : Bool
  /-- The clients that `select` has reported readable and that are still to be read. -/
  readable : List Nat
  /-- The ids assigned so far, each with its client. -/
  assigned : List (Int × Nat)
  /-- The bytes the port has taken so far. -/
  written : Data

/-- What happens to a broker.  `select` reports clients that it waits to read; `failed` is an error
at the port, or its end; `closeClient` an error at a client. -/
inductive Call where
  | select (clients : List Nat)
  | accept (service : Service) (uid now : Nat)
  | readClient (client : Nat) (data : Data) (now : Nat)
  | writeClient (client count : Nat)
  | closeClient (client : Nat)
  | readPort (data : Data) (now : Nat)
  | receive (value : Object) (now : Nat)
  | writePort (count : Nat)
  | expire (now : Nat)
  | failed

namespace Desk

/-- A broker that has said hello. -/
def opened (b : Broker) : Desk := ⟨b, true, [], [], []⟩

/-- Run a method of the broker; what it raises ends the broker, which closes. -/
def after (x : Act Broker Unit) (d : Desk) : Desk :=
  match x.run d.broker with
  | .ok _ b => { d with broker := b }
  | .error _ b => { d with broker := b.close, alive := false }

/-- The ids that the client got while the counter went from one value to the other. -/
def numbersOf (counter counter' : Int) (client : Nat) : List (Int × Nat) :=
  (List.range (counter' - counter).toNat).map fun k : Nat => (counter + k + 1, client)

variable (P : Python) (token : String)

/-- One call, if it can happen. -/
def next (d : Desk) : Call → Option Desk
  | .select clients =>
      if d.alive ∧ clients.Nodup ∧
          clients.all fun client => (d.broker.clients.lookup client).map Record.interest = some .read
      then some { d with readable := clients } else none
  | .accept service uid now =>
      if d.alive then some { d with broker := d.broker.accept service uid now } else none
  | .readClient client data now =>
      if d.alive ∧ client ∈ d.readable then
        let d' := d.after (Broker.guarded client (Broker.readClient P client data now))
        some { d' with
          readable := d.readable.erase client
          assigned := d.assigned ++ numbersOf d.broker.counter d'.broker.counter client }
      else none
  | .writeClient client count =>
      if d.alive then some { d with broker := d.broker.writeClient client count } else none
  | .closeClient client =>
      if d.alive then some { d with broker := d.broker.closeClient client } else none
  | .readPort data now =>
      if d.alive then some (d.after (Broker.readPort P token now (splitlines [] data))) else none
  | .receive value now =>
      if d.alive then some (d.after (Broker.receive P token value now)) else none
  | .writePort count =>
      if d.alive then
        some { d with
          broker := { d.broker with outgoing := d.broker.outgoing.drop count }
          written := d.written ++ d.broker.outgoing.take count }
      else none
  | .expire now => if d.alive then some (d.after (Broker.expire now)) else none
  | .failed => if d.alive then some { d with broker := d.broker.close, alive := false } else none

def Step (d : Desk) (e : Call) (_ : Unit) (d' : Desk) : Prop := d.next P token e = some d'

/-- The invariant. -/
structure Inv (d : Desk) : Prop where
  books : d.broker.Books
  readable : ∀ client ∈ d.readable, client < d.broker.accepted ∧
    ∀ r, d.broker.clients.lookup client = some r → r.Readable
  once : d.readable.Nodup
  assigned : d.assigned.Pairwise fun e e' => e.1 < e'.1
  counted : ∀ e ∈ d.assigned, e.1 ≤ d.broker.counter
  known : ∀ client r id, d.broker.clients.lookup client = some r → r.id = some id →
    (id, client) ∈ d.assigned
  queued : ∃ frames, List.Forall₂ (fun f x => encode P (GuestFrame.body f) = .ok x) d.broker.sent
    frames ∧ d.written ++ d.broker.outgoing = frames.flatten

variable {P token} {d d' : Desk}

theorem mem_numbersOf {counter counter' id : Int} {client other : Nat} :
    (id, other) ∈ numbersOf counter counter' client ↔
      other = client ∧ counter < id ∧ id ≤ counter' := by
  rw [numbersOf, List.mem_map]
  constructor
  · rintro ⟨k, hk, heq⟩
    rw [List.mem_range] at hk
    obtain ⟨rfl, rfl⟩ := Prod.mk.inj heq
    exact ⟨rfl, by omega, by omega⟩
  · rintro ⟨rfl, hlt, hle⟩
    exact ⟨(id - counter - 1).toNat, by rw [List.mem_range]; omega, Prod.ext (by simp; omega) rfl⟩

theorem numbersOf_pairwise (counter counter' : Int) (client : Nat) :
    (numbersOf counter counter' client).Pairwise fun e e' => e.1 < e'.1 := by
  rw [numbersOf, List.pairwise_map]
  refine List.pairwise_lt_range.imp ?_
  intro a b hab
  dsimp only
  omega

/-- An event that numbers nothing, and what it leaves of the clients to read. -/
theorem Inv.keeps (h : d.Inv P) {b : Broker} (hb : b.Books) (hk : Broker.Keeps d.broker b)
    (alive : Bool) : Inv P { d with broker := b, alive } where
  books := hb
  readable := by
    intro client hclient
    obtain ⟨hlt, hread⟩ := h.readable client hclient
    refine ⟨hk.accepted.symm ▸ hlt, ?_⟩
    intro r' hr'
    obtain ⟨r, hr, -, hr'⟩ := hk.records client r' hr'
    exact hr' (hread r hr)
  once := h.once
  assigned := h.assigned
  counted e he := hk.counter.symm ▸ h.counted e he
  known := by
    intro client r' id hr' hid'
    obtain ⟨r, hr, hid, -⟩ := hk.records client r' hr'
    exact h.known client r id hr (hid ▸ hid')
  queued := by
    change ∃ frames, List.Forall₂ _ b.sent frames ∧ d.written ++ b.outgoing = _
    rw [hk.sent, hk.outgoing]
    exact h.queued

/-- The end of a method that numbers nothing. -/
theorem Inv.after (h : d.Inv P) {x : Act Broker Unit}
    (hx : wp x (fun _ b => b.Books ∧ Broker.Keeps d.broker b)
      (fun _ b => b.Owned ∧ Broker.Keeps d.broker b) d.broker) : (d.after x).Inv P := by
  rw [Desk.after]
  split
  · rename_i b hrun
    obtain ⟨hb, hk⟩ := hx.ok hrun
    exact h.keeps hb hk d.alive
  · rename_i b hrun
    obtain ⟨hb, hk⟩ := hx.error hrun
    exact h.keeps (hb.books_close (hk.outgoing ▸ h.books.room)) (hk.trans (.close b)) false

/-- A client has been read. -/
theorem Inv.read (h : d.Inv P) {client : Nat} {b : Broker} (hb : b.Books)
    (hread : Broker.ReadBy P client d.broker b) (alive : Bool) :
    Inv P { d with
      broker := b
      alive
      readable := d.readable.erase client
      assigned := d.assigned ++ numbersOf d.broker.counter b.counter client } where
  books := hb
  readable := by
    intro other hother
    -- the client itself is not to be read again
    obtain ⟨hne, hmem⟩ := h.once.mem_erase_iff.mp hother
    obtain ⟨hlt, hreadable⟩ := h.readable other hmem
    refine ⟨hread.accepted.symm ▸ hlt, ?_⟩
    intro r hr
    exact hreadable r ((hread.others other hne).symm.trans hr)
  once := h.once.erase client
  assigned := by
    refine List.pairwise_append.mpr ⟨h.assigned, numbersOf_pairwise _ _ _, ?_⟩
    intro e he e' he'
    exact (h.counted e he).trans_lt (mem_numbersOf.mp he').2.1
  counted := by
    intro e he
    rcases List.mem_append.mp he with he | he
    · exact (h.counted e he).trans hread.counter
    · exact (mem_numbersOf.mp he).2.2
  known := by
    intro other r id hr hid
    by_cases heq : other = client
    · subst heq
      rcases hread.numbered r id hr hid with hlt | ⟨r₀, hr₀, hid₀⟩
      · exact List.mem_append_right _
          (mem_numbersOf.mpr ⟨rfl, hlt, hb.counted other r id hr hid⟩)
      · exact List.mem_append_left _ (h.known other r₀ id hr₀ hid₀)
    · exact List.mem_append_left _
        (h.known other r id ((hread.others other heq).symm.trans hr) hid)
  queued := by
    obtain ⟨frames, hframes, hbytes⟩ := h.queued
    obtain ⟨new, frames', hnew, hsent, hout⟩ := hread.sends
    refine ⟨frames ++ frames', ?_, ?_⟩
    · change List.Forall₂ _ b.sent _
      rw [hsent]
      exact List.rel_append hframes hnew
    · change d.written ++ b.outgoing = _
      rw [hout, ← List.append_assoc, hbytes, List.flatten_append]

/-- **One call** keeps the invariant. -/
theorem Inv.step (h : d.Inv P) {e : Call} (hs : Step P token d e () d') : d'.Inv P := by
  cases e with
  | select clients =>
      obtain ⟨⟨-, hnodup, hall⟩, ⟨⟩⟩ := Option.ite_none_right_eq_some.mp hs
      refine { h with readable := ?_, once := hnodup }
      intro client hclient
      have hinterest := List.all_eq_true.mp hall client hclient
      obtain ⟨r, hr, hread⟩ := Option.map_eq_some_iff.mp (of_decide_eq_true hinterest)
      refine ⟨h.books.young client r hr, ?_⟩
      intro r' hr'
      rw [hr] at hr'
      cases hr'
      exact .of_interest hread
  | accept service uid now =>
      obtain ⟨-, ⟨⟩⟩ := Option.ite_none_right_eq_some.mp hs
      obtain ⟨hsent, hout, hcounter, -, haccepted⟩ :=
        Broker.accept_fields d.broker service uid now
      refine ⟨h.books.accept service uid now, ?_, h.once, h.assigned, ?_, ?_, ?_⟩
      · intro client hclient
        obtain ⟨hlt, hread⟩ := h.readable client hclient
        refine ⟨haccepted.symm ▸ hlt.trans (Nat.lt_succ_self _), ?_⟩
        intro r hr
        rcases Broker.accept_records hr with hr | ⟨rfl, -⟩
        · exact hread r hr
        · exact absurd hlt (lt_irrefl _)
      · intro e he
        exact hcounter.symm ▸ h.counted e he
      · intro client r id hr hid
        rcases Broker.accept_records hr with hr | ⟨-, hnone⟩
        · exact h.known client r id hr hid
        · rw [hnone] at hid
          cases hid
      · change ∃ frames, List.Forall₂ _ (d.broker.accept service uid now).sent frames ∧
          d.written ++ (d.broker.accept service uid now).outgoing = _
        rw [hsent, hout]
        exact h.queued
  | readClient client data now =>
      obtain ⟨⟨-, hclient⟩, ⟨⟩⟩ := Option.ite_none_right_eq_some.mp hs
      have hx := Broker.guarded_books (P := P) client data now h.books
        (h.readable client hclient).2
      rw [Desk.after]
      split
      · rename_i b hrun
        obtain ⟨hb, hread⟩ := hx.ok hrun
        exact h.read hb hread d.alive
      · rename_i b hrun
        obtain ⟨hb, hread⟩ := hx.error hrun
        -- An exception that leaves the handler ends the loop, and the broker is closed.
        have hclosed := (h.read hb hread d.alive).keeps (hb.owned.books_close hb.room) (.close b) false
        dsimp only at hclosed ⊢
        rw [(Broker.close_fields b).2.2.1]
        exact hclosed
  | writeClient client count =>
      obtain ⟨-, ⟨⟩⟩ := Option.ite_none_right_eq_some.mp hs
      exact h.keeps (h.books.writeClient client count) (.writeClient _ client count) d.alive
  | closeClient client =>
      obtain ⟨-, ⟨⟩⟩ := Option.ite_none_right_eq_some.mp hs
      exact h.keeps (h.books.closeClient client) (.closeClient _ client) d.alive
  | readPort data now =>
      obtain ⟨-, ⟨⟩⟩ := Option.ite_none_right_eq_some.mp hs
      exact h.after (Broker.readPort_books token now _ h.books)
  | receive value now =>
      obtain ⟨-, ⟨⟩⟩ := Option.ite_none_right_eq_some.mp hs
      exact h.after (Broker.receive_books h.books token value now)
  | writePort count =>
      obtain ⟨-, ⟨⟩⟩ := Option.ite_none_right_eq_some.mp hs
      -- What is written moves from the front of the queue to the end of what the port has.
      refine ⟨?_, h.readable, h.once, h.assigned, h.counted, h.known, ?_⟩
      · refine ⟨h.books.pending, h.books.counted, h.books.own, h.books.young, h.books.few, ?_⟩
        exact (List.drop_sublist _ _).length_le.trans h.books.room
      · obtain ⟨frames, hframes, hbytes⟩ := h.queued
        refine ⟨frames, hframes, ?_⟩
        change (d.written ++ d.broker.outgoing.take count) ++ d.broker.outgoing.drop count = _
        rw [List.append_assoc, List.take_append_drop, hbytes]
  | expire now =>
      obtain ⟨-, ⟨⟩⟩ := Option.ite_none_right_eq_some.mp hs
      exact h.after (Broker.expire_books h.books now)
  | failed =>
      obtain ⟨-, ⟨⟩⟩ := Option.ite_none_right_eq_some.mp hs
      exact h.keeps (h.books.owned.books_close h.books.room) (.close _) false

/-- A broker that has said hello. -/
theorem Inv.opened {now : Nat} {b : Broker}
    (h : (System.initial.broker.start P token now).run System.initial.broker = .ok () b) :
    (opened b).Inv P := by
  have hwp : wp (System.initial.broker.start P token now)
      (fun _ b => b.clients = [] ∧ b.pending = [] ∧ b.outgoing.length ≤ maxQueue ∧
        ∃ f data, b.sent = [f] ∧ b.outgoing = data ∧ encode P (GuestFrame.body f) = .ok data)
      (fun _ _ => True) System.initial.broker := by
    simp only [Broker.start, wp_bind, wp_set, wp_modify]
    refine wp_mono (Broker.send_wp ..) ?_ fun _ _ _ => trivial
    rintro _ _ ⟨data, deadline, hdata, hroom, rfl⟩
    refine ⟨rfl, rfl, ?_, .hello _ token, data, rfl, rfl, hdata⟩
    simpa using hroom
  obtain ⟨hclients, hpending, hroom, f, data, hsent, hout, hdata⟩ := hwp.ok h
  have hnone : ∀ client, b.clients.lookup client = none := by simp [hclients]
  refine ⟨⟨?_, ?_, ?_, ?_, ?_, hroom⟩, ?_, List.nodup_nil, .nil, ?_, ?_, [data], ?_, ?_⟩
  · intro id client
    change b.pending.lookup id = _ ↔ ∃ r, b.clients.lookup client = some r ∧ _
    simp [hpending, hnone]
  · intro client r id hr
    exact absurd (hr.symm.trans (hnone client)) (by simp)
  · intro client _ r _ id hr
    exact absurd (hr.symm.trans (hnone client)) (by simp)
  · intro client r hr
    exact absurd (hr.symm.trans (hnone client)) (by simp)
  · change b.clients.length ≤ 32
    simp [hclients]
  · intro client hclient
    cases hclient
  · intro e he
    cases he
  · intro client r id hr
    exact absurd (hr.symm.trans (hnone client)) (by simp)
  · change List.Forall₂ _ b.sent _
    rw [hsent]
    exact .cons hdata .nil
  · change [] ++ b.outgoing = _
    simp [hout]

/-- The calls in turn, if each can happen. -/
def run (P : Python) (token : String) (d : Desk) (calls : List Call) : Option Desk :=
  calls.foldlM (next P token) d

theorem steps_of_run {calls : List Call} (h : d.run P token calls = some d') :
    Steps (Step P token) d (calls.map (·, ())) d' := by
  induction calls generalizing d with
  | nil =>
      cases h
      exact .refl _
  | cons e calls ih =>
      rw [run, List.foldlM_cons] at h
      obtain ⟨d₁, he, hrest⟩ := Option.bind_eq_some_iff.mp h
      exact .more he (ih hrest)

end Desk

/-- **The books of the broker**, in every state of every run: an id is pending for a client exactly
when the client's record has it and no response is queued; ids are assigned in increasing order, each
to one client; the clients and the queue are bounded, and the queue is what is left to write of the
frames sent.  A client whose handler raises leaves nothing pending. -/
theorem broker_bookkeeping (P : Python) (token : String) {now : Nat} {b : Broker}
    (hb : (System.initial.broker.start P token now).run System.initial.broker = .ok () b)
    {t : List (Call × Unit)} {d : Desk} (h : Steps (Desk.Step P token) (.opened b) t d) :
    (∀ id client, d.broker.pending.lookup id = some client ↔
      ∃ r, d.broker.clients.lookup client = some r ∧ r.id = some id ∧ r.output = []) ∧
    d.assigned.Pairwise (fun e e' => e.1 < e'.1) ∧
    (∀ client r id, d.broker.clients.lookup client = some r → r.id = some id →
      (id, client) ∈ d.assigned) ∧
    d.broker.clients.length ≤ 32 ∧
    d.broker.outgoing.length ≤ 262144 ∧
    (∃ frames, List.Forall₂ (fun f x => encode P (GuestFrame.body f) = .ok x) d.broker.sent
      frames ∧ d.written ++ d.broker.outgoing = frames.flatten) ∧
    ∀ client ∈ d.readable, ∀ data now b',
      (Broker.readClient P client data now).run d.broker = .error .caught b' →
      (b'.closeClient client).clients.lookup client = none ∧
        ∀ id, (b'.closeClient client).pending.lookup id ≠ some client := by
  have hinv : d.Inv P := h.invariant (I := Desk.Inv P) (fun h hs => h.step hs) (.opened hb)
  refine ⟨hinv.books.pending, hinv.assigned, hinv.known, hinv.books.few, hinv.books.room,
    hinv.queued, ?_⟩
  intro client hclient data now b' hrun
  have hwp := Broker.readClient_books (P := P) client data now hinv.books
    (hinv.readable client hclient).2
  have hclosed : (b'.closeClient client).clients.lookup client = none := by
    rw [Broker.lookup_closeClient, if_pos rfl]
  refine ⟨hclosed, fun id hp => ?_⟩
  obtain ⟨r, hr, -⟩ := (((hwp.error hrun).1.closeClient client).pending id client).mp hp
  rw [hclosed] at hr
  cases hr

namespace Sample

/-- A client asks for the status; the second one leaves before it is answered. -/
def calls : List Call :=
  [.readPort ((guestTexts.table.map Prod.snd).headI ++ [10]) 0, .accept .host 0 0, .accept .wifi 0 0,
    .select [0, 1], .readClient 0 (statusText ++ [10]) 1, .closeClient 1, .writePort 20]

theorem pending :
    ((match (System.initial.broker.start setting.python token 0).run System.initial.broker with
      | .ok _ b => (Desk.opened b).run setting.python token calls
      | .error _ _ => none).any fun d : Desk => d.broker.pending = [(1, 0)]) = true := by
  decide +kernel

end Sample

theorem broker_bookkeeping_pending :
    ∃ b t d, (System.initial.broker.start Sample.setting.python Sample.token 0).run
        System.initial.broker = .ok () b ∧
      Steps (Desk.Step Sample.setting.python Sample.token) (.opened b) t d ∧
      d.broker.pending = [(1, 0)] ∧
      ∃ r, d.broker.clients.lookup 0 = some r ∧ r.id = some 1 ∧ r.output = [] := by
  have hpending := Sample.pending
  cases hb : (System.initial.broker.start Sample.setting.python Sample.token 0).run
      System.initial.broker with
  | error e b =>
      rw [hb] at hpending
      cases hpending
  | ok u b =>
      rw [hb] at hpending
      obtain ⟨d, hd, hp⟩ := (Option.any_eq_true ..).mp hpending
      have hrun := Desk.steps_of_run hd
      have hp : d.broker.pending = [(1, 0)] := of_decide_eq_true hp
      refine ⟨b, _, d, rfl, hrun, hp, ?_⟩
      refine ((broker_bookkeeping _ _ hb hrun).1 1 0).mp ?_
      rw [hp]
      rfl

end Ashacky.Control
