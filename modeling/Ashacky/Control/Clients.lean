import Ashacky.Support.Dictionary
import Ashacky.Control.Sessions

/-!
# Control — clients, requests and deliveries

What holds of the broker at any time, given the sessions the host has opened.

* `Broker.Core`: the requests sent so far, by this broker and the ones before it, differ in their
  client, and in their session or id; each was sent under a session opened for its broker.
* `Broker.Live`: a running broker knows of each pending id the request it was sent with.
* `readClient_wp`: reading a client forwards at most one request for it.
* `readPort_wp`: what a response of the host hands to a client belongs to a request of that client.
-/

namespace Ashacky.Control
open Ashacky.Support

/-- The requests among the frames. -/
def requestsOf (sent : List GuestFrame) : List LocalRequest :=
  sent.filterMap fun
    | .request r => some r
    | .hello _ _ => none

/-- The requests among the frames are those that were sent. -/
theorem mem_requestsOf {sent : List GuestFrame} {r : LocalRequest} :
    r ∈ requestsOf sent ↔ .request r ∈ sent := by
  rw [requestsOf, List.mem_filterMap]
  constructor
  · rintro ⟨f, hf, h⟩
    cases f with
    | hello => cases h
    | request r' =>
        cases h
        exact hf
  · intro h
    exact ⟨_, h, rfl⟩

theorem requestsOf_append (sent new : List GuestFrame) :
    requestsOf (sent ++ new) = requestsOf sent ++ requestsOf new :=
  List.filterMap_append

namespace Broker

/-- What holds of the requests sent so far. -/
structure Core (S : Setting) (opened : List Opened) (b : Broker) : Prop where
  requests : ∀ r, .request r ∈ b.sent →
    (∃ o ∈ opened, o.session = r.session ∧ o.nonce = S.python.uuid4 r.broker) ∧
      r.broker ≤ b.index ∧ r.client < b.accepted
  keys : ((requestsOf b.sent).map fun r => (r.session, r.id)).Nodup
  clients : ((requestsOf b.sent).map LocalRequest.client).Nodup

/-- What holds of a running broker. -/
structure Live (S : Setting) (opened : List Opened) (b : Broker) : Prop where
  core : b.Core S opened
  nonce : b.nonce = S.python.uuid4 b.index
  session : ∀ s, b.session = some s → ∃ o ∈ opened, o.session = s ∧ o.nonce = b.nonce
  own : ∀ r, .request r ∈ b.sent → r.broker = b.index →
    r.id ≤ b.counter ∧ b.session = some r.session
  pending : ∀ e ∈ b.pending, ∃ r, .request r ∈ b.sent ∧ r.broker = b.index ∧ r.client = e.2 ∧
    r.id = e.1
  known : ∀ e ∈ b.clients, e.1 < b.accepted ∧
    (e.2.id = none → ∀ r, .request r ∈ b.sent → r.client ≠ e.1)

section

variable {S : Setting} {opened : List Opened} {b b' : Broker}

/-- The requests of one session have one broker. -/
theorem Core.same_broker (h : b.Core S opened) (ho : (opened.map Opened.session).Nodup)
    {o : Opened} (hm : o ∈ opened) {k : Nat} (hk : o.nonce = S.python.uuid4 k) {r : LocalRequest}
    (hr : .request r ∈ b.sent) (hs : r.session = o.session) : r.broker = k := by
  obtain ⟨⟨o', hm', hs', hn'⟩, -, -⟩ := h.requests r hr
  obtain rfl : o = o' := List.inj_on_of_nodup_map ho hm hm' (hs.symm.trans hs'.symm)
  exact S.python.uuid4_inj (hn'.symm.trans hk)

/-- A request is known by its session and id. -/
theorem Core.eq_of_key (h : b.Core S opened) {r r' : LocalRequest} (hr : .request r ∈ b.sent)
    (hr' : .request r' ∈ b.sent) (hs : r.session = r'.session) (hi : r.id = r'.id) : r = r' :=
  List.inj_on_of_nodup_map h.keys (mem_requestsOf.mpr hr) (mem_requestsOf.mpr hr')
    (Prod.ext hs hi)

/-! ### Records -/

/-- A record that is changed stands changed, and the others as they were. -/
theorem lookup_withRecord (b : Broker) (client : Nat) (f : Record → Record) (other : Nat) :
    (b.withRecord client f).clients.lookup other =
      if other = client then (b.clients.lookup client).map f else b.clients.lookup other :=
  lookup_map_at b.clients client f other

/-- A record may change, but not lose its id. -/
theorem Live.withRecord (h : b.Live S opened) (client : Nat) {f : Record → Record}
    (hf : ∀ r, (f r).id = none → r.id = none) : (b.withRecord client f).Live S opened :=
  { core := { h.core with }
    nonce := h.nonce
    session := h.session
    own := h.own
    pending := h.pending
    known := by
      intro e he
      obtain ⟨e₀, he₀, rfl⟩ := List.mem_map.mp he
      obtain ⟨ha, hn⟩ := h.known e₀ he₀
      split
      · exact ⟨ha, fun hid => hn (hf _ hid)⟩
      · exact ⟨ha, hn⟩ }

/-- Closing a client keeps a broker running. -/
theorem Live.closeClient (h : b.Live S opened) (client : Nat) :
    (b.closeClient client).Live S opened := by
  rw [Broker.closeClient]
  split
  · exact h
  · rename_i record _
    refine
      { core := { h.core with }
        nonce := h.nonce
        session := h.session
        own := h.own
        pending := ?_
        known := fun e he => h.known e (List.mem_filter.mp he).1 }
    intro e he
    refine h.pending e ?_
    cases hid : record.id with
    | none =>
        simp only [hid] at he
        exact he
    | some id =>
        simp only [hid] at he
        exact (List.mem_filter.mp he).1

theorem Live.accept (h : b.Live S opened) (service : Service) (uid now : Nat) :
    (b.accept service uid now).Live S opened := by
  have hcore : ∀ clients, ({ b with accepted := b.accepted + 1, clients } : Broker).Core S opened :=
    fun _ =>
      { requests := fun r hr => by
          obtain ⟨ho, hi, hc⟩ := h.core.requests r hr
          exact ⟨ho, hi, hc.trans (Nat.lt_succ_self _)⟩
        keys := h.core.keys
        clients := h.core.clients }
  have hknown : ∀ e ∈ b.clients, e.1 < b.accepted + 1 ∧
      (e.2.id = none → ∀ r, .request r ∈ b.sent → r.client ≠ e.1) := by
    intro e he
    obtain ⟨ha, hn⟩ := h.known e he
    exact ⟨ha.trans (Nat.lt_succ_self _), hn⟩
  rw [Broker.accept]
  split
  · exact ⟨hcore _, h.nonce, h.session, h.own, h.pending, hknown⟩
  · refine ⟨hcore _, h.nonce, h.session, h.own, h.pending, ?_⟩
    intro e he
    rcases List.mem_append.mp he with he | he
    · exact hknown e he
    · obtain rfl := List.mem_singleton.mp he
      exact ⟨Nat.lt_succ_self _, fun _ r hr => (h.core.requests r hr).2.2.ne⟩

theorem Live.writeClient (h : b.Live S opened) (client count : Nat) :
    (b.writeClient client count).Live S opened := by
  rw [Broker.writeClient]
  split
  · exact h
  · split
    · exact h.closeClient client
    · exact h.withRecord client fun r hr => hr

/-- A broker that ends leaves its requests. -/
theorem Core.stop (h : b.Core S opened) : b.stop.Core S opened := { h with }

/-! ### Queueing frames -/

/-- What a method that talks to a client leaves: the frames it queues follow those on their way. -/
structure Queues (S : Setting) (b b' : Broker) : Prop where
  frames : b'.frames = b.frames
  deliveries : b'.deliveries = b.deliveries
  queued : ∃ new, b'.sent = b.sent ++ new ∧ ∀ {fs : List GuestFrame} {bytes : Data},
    (hostWire S).Carries fs (bytes ++ b.outgoing) →
      (hostWire S).Carries (fs ++ new) (bytes ++ b'.outgoing)

/-- What queues nothing leaves the frames as they are. -/
theorem Queues.of_eq (hf : b'.frames = b.frames) (hd : b'.deliveries = b.deliveries)
    (hs : b'.sent = b.sent) (ho : b'.outgoing = b.outgoing) : Queues S b b' :=
  ⟨hf, hd, [], by rw [hs, List.append_nil], fun h => by rw [ho, List.append_nil]; exact h⟩

/-- Frames that are queued in two stretches follow those on their way. -/
theorem Queues.trans {b₁ : Broker} (h : Queues S b b₁) (h' : Queues S b₁ b') : Queues S b b' := by
  obtain ⟨new, hs, hc⟩ := h.queued
  obtain ⟨new', hs', hc'⟩ := h'.queued
  refine ⟨h'.frames.trans h.frames, h'.deliveries.trans h.deliveries, new ++ new', ?_, ?_⟩
  · rw [hs', hs, List.append_assoc]
  · intro fs bytes hcar
    rw [← List.append_assoc]
    exact hc' (hc hcar)

/-- Closing a client queues nothing. -/
theorem Queues.closeClient (b : Broker) (client : Nat) : Queues S b (b.closeClient client) := by
  rw [Broker.closeClient]
  split
  · exact .of_eq rfl rfl rfl rfl
  · exact .of_eq rfl rfl rfl rfl

/-- A frame's line is the text of its object with the version, and a line feed. -/
theorem encode_eq_ok {P : Python} {value : Object} {data : Data} (h : encode P value = .ok data) :
    ∃ x, P.dumps true (.obj (Object.set value "version" (.int 1))) = .ok x ∧ data = x ++ [10] := by
  rw [encode] at h
  split at h
  · rename_i x hx
    split at h
    · cases h
    · cases h
      exact ⟨x, hx, rfl⟩
  · cases h

/-- `send` queues the frame, or raises and changes nothing. -/
theorem send_wp (P : Python) (value : Object) (now : Nat) (b : Broker) :
    wp (send P value now)
      (fun _ b' => ∃ data deadline, encode P (match b.session with
          | some session => Object.set value "session" (.str session)
          | none => value) = .ok data ∧
        b.outgoing.length + data.length ≤ maxQueue ∧
        b' = { b with writeDeadline := deadline, outgoing := b.outgoing ++ data })
      (fun _ b' => b' = b) b := by
  simp only [send, wp_bind, wp_get]
  refine wp_fromExcept (fun data hdata => ?_) fun _ _ => rfl
  exact wp_ite (fun _ => rfl) fun hroom => ⟨data, _, hdata, Nat.not_lt.mp hroom, rfl⟩

/-- `respond` gives the client its output, or raises and changes nothing. -/
theorem respond_wp (P : Python) (client : Nat) (payload : Object) (now : Nat) (b : Broker) :
    wp (respond P client payload now)
      (fun _ b' => (b.clients.lookup client = none ∧ b' = b) ∨ ∃ output deadline, output ≠ [] ∧
        b' = b.withRecord client fun r => { r with output, deadline })
      (fun _ b' => b' = b) b := by
  simp only [respond, wp_bind, wp_get]
  split
  · rename_i hnone
    exact .inl ⟨hnone, rfl⟩
  · rw [wp_bind]
    exact wp_fromExcept (fun data _ => .inr ⟨_, _, by simp, rfl⟩) fun _ _ => rfl

/-! ### Requests of clients -/

/-- What is left when the handler of a client raises: closing the client makes it good. -/
def Broken (S : Setting) (opened : List Opened) (client : Nat) (b b' : Broker) : Prop :=
  (b'.closeClient client).Live S opened ∧ b'.Core S opened ∧ Queues S b b'

/-- A broker that runs need not be made good. -/
theorem Broken.of_live {client : Nat} (h : b'.Live S opened) (hq : Queues S b b') :
    Broken S opened client b b' :=
  ⟨h.closeClient client, h.core, hq⟩

/-- The broker in which the request of a client is numbered, and pending. -/
theorem Live.numbered (h : b.Live S opened) (client : Nat) {f : Record → Record}
    (hid : ∀ r, (f r).id = some (b.counter + 1)) {record : Record}
    (hc : b.clients.lookup client = some record) :
    let b₁ := { b.withRecord client f with
      counter := b.counter + 1, pending := b.pending ++ [(b.counter + 1, client)] }
    (b₁.closeClient client).Live S opened := by
  intro b₁
  have hlookup : b₁.clients.lookup client = some (f record) := by
    have := lookup_withRecord b client f client
    rw [if_pos rfl, hc] at this
    exact this
  have hknown := (h.withRecord client (f := f) fun r hr => by rw [hid] at hr; cases hr).known
  rw [Broker.closeClient, hlookup]
  refine
    { core := { h.core with }
      nonce := h.nonce
      session := h.session
      own := ?_
      pending := ?_
      known := fun e he => hknown e (List.mem_filter.mp he).1 }
  · intro r hr hb
    obtain ⟨hle, hs⟩ := h.own r hr hb
    exact ⟨hle.trans (Int.le_add_one le_rfl), hs⟩
  · intro e he
    simp only [hid] at he
    obtain ⟨he, hne⟩ := List.mem_filter.mp he
    rcases List.mem_append.mp he with he | he
    · exact h.pending e he
    · obtain rfl := List.mem_singleton.mp he
      simp at hne

/-- The broker in which that request has been sent. -/
theorem Live.forwarded (h : b.Live S opened) (ho : (opened.map Opened.session).Nodup)
    {client : Nat} {record : Record} (hc : b.clients.lookup client = some record)
    (hnone : record.id = none) {session : String} (hs : b.session = some session)
    {f : Record → Record} (hid : ∀ r, (f r).id = some (b.counter + 1)) (service : Service)
    (value : Object) (deadline : Nat) (outgoing : Data) :
    ({ b.withRecord client f with
      counter := b.counter + 1
      pending := b.pending ++ [(b.counter + 1, client)]
      writeDeadline := deadline
      outgoing := outgoing
      sent := b.sent ++
        [.request ⟨b.index, client, session, b.counter + 1, service, value⟩] } :
      Broker).Live S opened := by
  obtain ⟨hlt, hfresh⟩ := h.known _ (mem_of_lookup hc)
  obtain ⟨o, hom, hos, hon⟩ := h.session session hs
  have hsent : ∀ r, .request r ∈ b.sent ++
      [.request ⟨b.index, client, session, b.counter + 1, service, value⟩] →
      .request r ∈ b.sent ∨ r = ⟨b.index, client, session, b.counter + 1, service, value⟩ := by
    intro r hr
    rcases List.mem_append.mp hr with hr | hr
    · exact .inl hr
    · exact .inr (GuestFrame.request.inj (List.mem_singleton.mp hr))
  -- no request of this session has passed the counter
  have hkey : ∀ r ∈ requestsOf b.sent, (r.session, r.id) ≠ (session, b.counter + 1) := by
    intro r hr he
    obtain ⟨hes, hei⟩ := Prod.mk.inj he
    have hr := mem_requestsOf.mp hr
    have hb := h.core.same_broker ho hom (hon.trans h.nonce) hr (hes.trans hos.symm)
    have := (h.own r hr hb).1
    rw [hei] at this
    exact absurd this (not_le.mpr (Int.lt_succ _))
  refine
    { core :=
        { requests := ?_
          keys := ?_
          clients := ?_ }
      nonce := h.nonce
      session := h.session
      own := ?_
      pending := ?_
      known := ?_ }
  · intro r hr
    rcases hsent r hr with hr | rfl
    · exact h.core.requests r hr
    · exact ⟨⟨o, hom, hos, hon.trans h.nonce⟩, le_rfl, hlt⟩
  · rw [requestsOf_append, List.map_append, List.nodup_append]
    refine ⟨h.core.keys, List.nodup_singleton _, ?_⟩
    intro k hk k' hk'
    obtain ⟨r, hr, rfl⟩ := List.mem_map.mp hk
    obtain rfl := List.mem_singleton.mp hk'
    exact hkey r hr
  · rw [requestsOf_append, List.map_append, List.nodup_append]
    refine ⟨h.core.clients, List.nodup_singleton _, ?_⟩
    intro k hk k' hk'
    obtain ⟨r, hr, rfl⟩ := List.mem_map.mp hk
    obtain rfl := List.mem_singleton.mp hk'
    exact hfresh hnone r (mem_requestsOf.mp hr)
  · intro r hr hb
    rcases hsent r hr with hr | rfl
    · obtain ⟨hle, hs'⟩ := h.own r hr hb
      exact ⟨hle.trans (Int.le_add_one le_rfl), hs'⟩
    · exact ⟨le_rfl, hs⟩
  · intro e he
    rcases List.mem_append.mp he with he | he
    · obtain ⟨r, hr, hrest⟩ := h.pending e he
      exact ⟨r, List.mem_append_left _ hr, hrest⟩
    · obtain rfl := List.mem_singleton.mp he
      exact ⟨_, List.mem_append_right _ (List.mem_singleton_self _), rfl, rfl, rfl⟩
  · intro e he
    obtain ⟨e₀, he₀, rfl⟩ := List.mem_map.mp he
    obtain ⟨ha, hn⟩ := h.known e₀ he₀
    split
    · refine ⟨ha, fun hnone' => ?_⟩
      rw [hid] at hnone'
      cases hnone'
    · rename_i hne
      refine ⟨ha, fun hnone' r hr => ?_⟩
      rcases hsent r hr with hr | rfl
      · exact hn hnone' r hr
      · exact fun heq => hne heq.symm

/-- **Forwarding a request.** -/
theorem forward_wp (h : b.Live S opened) (ho : (opened.map Opened.session).Nodup) {client : Nat}
    {record : Record} (hc : b.clients.lookup client = some record) (hnone : record.id = none)
    {session : String} (hs : b.session = some session) (service : Service) (value : Object)
    (now : Nat) :
    wp (forward S.python client service value session now)
      (fun _ b' => b'.Live S opened ∧ Queues S b b')
      (fun _ b' => Broken S opened client b b') b := by
  simp only [forward, wp_bind, wp_get, wp_set, wp_modify]
  refine wp_mono (send_wp ..) ?_ ?_
  · rintro _ _ ⟨data, deadline, hdata, -, rfl⟩
    obtain ⟨x, hx, rfl⟩ := encode_eq_ok hdata
    have hlive := h.forwarded ho hc hnone hs (f := fun r => { r with
      id := some (b.counter + 1)
      deadline := now + if service = .host ∨ service = .fido2 then 80 else 20 }) (fun _ => rfl)
      service value deadline (b.outgoing ++ (x ++ [10]))
    refine ⟨hlive, rfl, rfl, _, rfl, fun hcar => ?_⟩
    have hwrites : (hostWire S).writes
        (.request ⟨b.index, client, session, b.counter + 1, service, value⟩) x := by
      have hsession : (b.withRecord client fun r => { r with
          id := some (b.counter + 1)
          deadline := now + if service = .host ∨ service = .fido2 then 80 else 20 }).session =
          some session := hs
      rw [hsession] at hx
      exact S.toHost_writes hx
    have happend := hcar.append hwrites
    rw [List.append_assoc] at happend
    exact happend
  · rintro _ _ rfl
    exact ⟨h.numbered client (fun _ => rfl) hc, { h.core with }, .of_eq rfl rfl rfl rfl⟩

/-- What was queued before a handler raised stays queued. -/
theorem Broken.trans {client : Nat} {b₁ : Broker} (hq : Queues S b b₁)
    (h : Broken S opened client b₁ b') : Broken S opened client b b' :=
  ⟨h.1, h.2.1, hq.trans h.2.2⟩

/-- The loop over the data of a client. -/
theorem readParts_wp (ho : (opened.map Opened.session).Nodup) (client now : Nat)
    (parts : List Data) (h : b.Live S opened) :
    wp (readParts S.python client now parts)
      (fun _ b' => b'.Live S opened ∧ Queues S b b')
      (fun _ b' => Broken S opened client b b') b := by
  induction parts generalizing b with
  | nil => exact ⟨h, .of_eq rfl rfl rfl rfl⟩
  | cons part parts ih =>
      simp only [readParts, wp_bind, wp_get]
      split
      · exact Broken.of_live h (.of_eq rfl rfl rfl rfl)
      · rename_i record hc
        rw [wp_bind]
        refine wp_fromExcept (fun fed _ => ?_) fun _ _ => Broken.of_live h (.of_eq rfl rfl rfl rfl)
        obtain ⟨buffer, value⟩ := fed
        simp only [wp_bind, wp_set]
        have hlive := h.withRecord client (f := fun r => { r with frames := buffer }) fun _ hr => hr
        have hq : Queues S b (b.withRecord client fun r => { r with frames := buffer }) :=
          .of_eq rfl rfl rfl rfl
        have hc' : (b.withRecord client fun r => { r with frames := buffer }).clients.lookup client =
            some { record with frames := buffer } := by
          rw [lookup_withRecord, if_pos rfl, hc]
          rfl
        split
        · refine wp_mono (ih hlive) ?_ ?_
          · rintro _ b' ⟨hb, hq'⟩
            exact ⟨hb, hq.trans hq'⟩
          · rintro _ b' hb
            exact hb.trans hq
        · refine wp_ite (fun _ => Broken.of_live hlive hq) fun hid => ?_
          split
          · refine wp_mono (respond_wp ..) ?_ ?_
            · rintro _ _ (⟨-, rfl⟩ | ⟨output, deadline, -, rfl⟩)
              · exact ⟨hlive, hq⟩
              · exact ⟨hlive.withRecord client fun _ hr => hr, hq.trans (.of_eq rfl rfl rfl rfl)⟩
            · rintro _ _ rfl
              exact Broken.of_live hlive hq
          · rename_i session hs
            rw [wp_bind]
            refine wp_mono (forward_wp hlive ho hc' (by simpa using hid) hs _ _ _) ?_ ?_
            · rintro _ b₁ ⟨hb₁, hq₁⟩
              refine wp_mono (ih hb₁) ?_ ?_
              · rintro _ b' ⟨hb, hq'⟩
                exact ⟨hb, (hq.trans hq₁).trans hq'⟩
              · rintro _ b' hb
                exact hb.trans (hq.trans hq₁)
            · rintro _ b' hb
              exact hb.trans hq

/-- **Reading a client** keeps the broker, unless it ends it. -/
theorem readClient_wp (ho : (opened.map Opened.session).Nodup) (client : Nat) (data : Data)
    (now : Nat) (h : b.Live S opened) :
    wp (guarded client (readClient S.python client data now))
      (fun _ b' => b'.Live S opened ∧ Queues S b b')
      (fun _ b' => b'.Core S opened ∧ Queues S b b') b := by
  have hread : wp (readClient S.python client data now)
      (fun _ b' => b'.Live S opened ∧ Queues S b b')
      (fun _ b' => Broken S opened client b b') b := by
    simp only [readClient, wp_bind, wp_get]
    split
    · exact Broken.of_live h (.of_eq rfl rfl rfl rfl)
    · refine wp_ite (fun _ => ⟨h.closeClient client, .closeClient b client⟩) fun _ => ?_
      refine wp_ite (fun _ => Broken.of_live h (.of_eq rfl rfl rfl rfl)) fun _ => ?_
      exact readParts_wp ho client now _ h
  rw [guarded, wp_tryCatch]
  refine wp_mono hread (fun _ _ hb => hb) ?_
  rintro e b' ⟨hlive, hcore, hq⟩
  cases e with
  | caught => exact ⟨hlive, hq.trans (.closeClient b' client)⟩
  | uncaught => exact ⟨hcore, hq⟩

end

end Broker

/-! ### Responses of the host -/

/-- The frames of the host, as the brokers read them. -/
def guestWire (S : Setting) : Wire HostFrame Object := S.toGuest.wire HostFrame.entries

/-- What stands behind a delivery: a request of that client, and the result of an invocation made
for it or a refusal of it. -/
def Delivered (S : Setting) (sent : List GuestFrame) (H : History) (d : Delivery) : Prop :=
  ∃ r, .request r ∈ sent ∧ r.broker = d.broker ∧ r.client = d.client ∧
    ((∃ n i result, H.invocations[n]? = some i ∧ i.For S r ∧ (n, result) ∈ H.results ∧
        S.toGuest.cross (.obj result) = .obj d.payload) ∨
      ∃ refusal, IsRefusal refusal ∧ ⟨r.session, r.id, refusal⟩ ∈ H.refusals ∧
        S.toGuest.cross (.obj refusal) = .obj d.payload)

theorem Delivered.mono {S : Setting} {sent sent' : List GuestFrame} {H H' : History}
    {d : Delivery} (h : Delivered S sent H d) (hs : sent ⊆ sent') (hH : H.Continues H') :
    Delivered S sent' H' d := by
  obtain ⟨r, hr, hb, hc, ⟨n, i, result, hi, hf, hm, hp⟩ | ⟨refusal, hr', hm, hp⟩⟩ := h
  · exact ⟨r, hs hr, hb, hc, .inl ⟨n, i, result, hH.invocation hi, hf, hH.results hm, hp⟩⟩
  · exact ⟨r, hs hr, hb, hc, .inr ⟨refusal, hr', hH.refusals hm, hp⟩⟩

namespace Broker

/-- What reading the port leaves: nothing is sent, and each delivery is of a response. -/
structure Served (S : Setting) (H : History) (b b' : Broker) : Prop where
  sent : b'.sent = b.sent
  outgoing : b'.outgoing = b.outgoing
  index : b'.index = b.index
  accepted : b'.accepted = b.accepted
  deliveries : ∀ d ∈ b'.deliveries, d ∈ b.deliveries ∨ Delivered S b.sent H d

section

variable {S : Setting} {H : History} {b b' : Broker}

theorem Served.refl (b : Broker) : Served S H b b :=
  ⟨rfl, rfl, rfl, rfl, fun _ hd => .inl hd⟩

/-- Reading the port can be done in steps. -/
theorem Served.trans {b₁ : Broker} (h : Served S H b b₁) (h' : Served S H b₁ b') :
    Served S H b b' := by
  refine ⟨h'.sent.trans h.sent, h'.outgoing.trans h.outgoing, h'.index.trans h.index,
    h'.accepted.trans h.accepted, fun d hd => ?_⟩
  rcases h'.deliveries d hd with hd | hd
  · exact h.deliveries d hd
  · rw [h.sent] at hd
    exact .inr hd

/-- Reading the port leaves what holds of the requests. -/
theorem Served.core {opened : List Opened} (h : Served S H b b') (hb : b.Core S opened) :
    b'.Core S opened where
  requests := by rw [h.sent, h.index, h.accepted]; exact hb.requests
  keys := by rw [h.sent]; exact hb.keys
  clients := by rw [h.sent]; exact hb.clients

/-- A welcome for this broker opens its session. -/
theorem receiveWelcome_wp (h : b.Live S H.opened) (hs : b.session = none) {f : HostFrame}
    (hf : f.Sound H) {value : Object} (hv : (guestWire S).value f value) (token : String) :
    wp (receiveWelcome S.python token value)
      (fun _ b' => b'.Live S H.opened ∧ Served S H b b' ∧ b'.frames = b.frames)
      (fun _ b' => Served S H b b') b := by
  simp only [receiveWelcome, wp_bind, wp_get]
  refine wp_ite (fun hwelcome => ?_) fun _ => .refl b
  obtain ⟨htype, hnonce, -⟩ := hwelcome
  cases f with
  | response session id payload origin =>
      rw [Exchange.text_eq hv "type" rfl] at htype
      exact absurd (Option.some.inj htype) (by decide)
  | reset =>
      rw [Exchange.text_eq hv "type" rfl] at htype
      exact absurd (Option.some.inj htype) (by decide)
  | welcome nonce session token =>
      have hsession : value.lookup "session" = some (.str session) := by
        rw [hv "session"]
        exact congrArg some (S.toGuest.cross_str session)
      rw [Exchange.text_eq hv "nonce" rfl] at hnonce
      obtain ⟨o, ho, hos, hon⟩ := hf
      simp only [hsession]
      refine wp_ite (fun _ => ⟨?_, ⟨rfl, rfl, rfl, rfl, fun _ hd => .inl hd⟩, rfl⟩) fun _ => .refl b
      exact
        { core := { h.core with }
          nonce := h.nonce
          session := by
            rintro s ⟨⟩
            exact ⟨o, ho, hos, hon.trans (Option.some.inj hnonce)⟩
          own := by
            intro r hr hb
            have := (h.own r hr hb).2
            rw [hs] at this
            cases this
          pending := h.pending
          known := h.known }

/-- **The response to a pending request** is handed to the client that made it. -/
theorem receiveResponse_wp (h : b.Live S H.opened) {session : String}
    (hs : b.session = some session) {f : HostFrame} (hf : f.Sound H)
    (hfor : ∀ i ∈ H.invocations, ∃ r, .request r ∈ b.sent ∧ i.For S r) {value : Object}
    (hv : (guestWire S).value f value) (hsession : Object.text value "session" = some session)
    (htype : Object.text value "type" = some "response") (now : Nat) :
    wp (receiveResponse S.python value now)
      (fun _ b' => b'.Live S H.opened ∧ Served S H b b' ∧ b'.frames = b.frames)
      (fun _ b' => Served S H b b') b := by
  rw [receiveResponse.eq_def]
  split
  · rename_i id payload hid hpayload
    simp only [wp_bind, wp_get]
    split
    · exact ⟨h, .refl b, rfl⟩
    · rename_i client hpending
      obtain ⟨r, hr, hbroker, hclient, hrid⟩ := h.pending _ (mem_of_lookup hpending)
      have hrs : r.session = session :=
        Option.some.inj ((h.own r hr hbroker).2.symm.trans hs)
      -- the frame is a response under the session and the id of that request
      have hdelivered : Delivered S b.sent H ⟨b.index, client, payload⟩ := by
        refine ⟨r, hr, hbroker, hclient, ?_⟩
        cases f with
        | welcome =>
            rw [Exchange.text_eq hv "type" rfl] at htype
            exact absurd (Option.some.inj htype) (by decide)
        | reset =>
            rw [Exchange.text_eq hv "type" rfl] at htype
            exact absurd (Option.some.inj htype) (by decide)
        | response s i p origin =>
            rw [Exchange.text_eq hv "session" rfl] at hsession
            rw [hv "id"] at hid
            rw [hv "payload"] at hpayload
            obtain rfl : s = session := Option.some.inj hsession
            have hi : id = i := S.toGuest.cross_int _ _ (Option.some.inj hid)
            have hp : S.toGuest.cross (.obj p) = .obj payload := Option.some.inj hpayload
            cases origin with
            | none =>
                rw [hrs, hrid, hi]
                exact .inr ⟨p, hf.1, hf.2, hp⟩
            | some n =>
                obtain ⟨hresult, inv, hinv, his, hii⟩ := hf
                obtain ⟨r', hr', hfor'⟩ := hfor inv (List.mem_of_getElem? hinv)
                have heq : r' = r := h.core.eq_of_key hr' hr
                  (hfor'.1.symm.trans (his.trans hrs.symm))
                  (hfor'.2.1.symm.trans (hii.trans (hi.symm.trans hrid.symm)))
                exact .inl ⟨n, inv, p, hinv, heq ▸ hfor', hresult, hp⟩
      have hpop : ({ b with pending := b.pending.filter (·.1 ≠ id) } : Broker).Live S H.opened :=
        { core := { h.core with }
          nonce := h.nonce
          session := h.session
          own := h.own
          pending := fun e he => h.pending e (List.mem_filter.mp he).1
          known := h.known }
      have hdeliver : ∀ b₁ : Broker, b₁.Live S H.opened → Served S H b b₁ →
          let b' := if (b₁.clients.lookup client).isSome then
            { b₁ with deliveries := b₁.deliveries ++ [⟨b₁.index, client, payload⟩] } else b₁
          b'.Live S H.opened ∧ Served S H b b' ∧ b'.frames = b₁.frames := by
        intro b₁ hb₁ hserved
        dsimp only
        split
        · refine ⟨⟨{ hb₁.core with }, hb₁.nonce, hb₁.session, hb₁.own, hb₁.pending, hb₁.known⟩,
            ⟨hserved.sent, hserved.outgoing, hserved.index, hserved.accepted, ?_⟩, rfl⟩
          intro d hmem
          rcases List.mem_append.mp hmem with hmem | hmem
          · exact hserved.deliveries d hmem
          · rw [List.mem_singleton.mp hmem, hserved.index]
            exact .inr hdelivered
        · exact ⟨hb₁, hserved, rfl⟩
      simp only [wp_bind, wp_set, wp_modify]
      refine wp_mono (respond_wp ..) ?_ ?_
      · rintro _ _ (⟨-, rfl⟩ | ⟨output, deadline, -, rfl⟩)
        · exact hdeliver _ hpop ⟨rfl, rfl, rfl, rfl, fun _ hd => .inl hd⟩
        · exact hdeliver _ (hpop.withRecord client fun _ hr => hr)
            ⟨rfl, rfl, rfl, rfl, fun _ hd => .inl hd⟩
      · rintro _ _ rfl
        exact ⟨rfl, rfl, rfl, rfl, fun _ hd => .inl hd⟩
  · exact .refl b

/-- `receive`, for the object of a sound frame. -/
theorem receive_wp (h : b.Live S H.opened) {f : HostFrame} (hf : f.Sound H)
    (hfor : ∀ i ∈ H.invocations, ∃ r, .request r ∈ b.sent ∧ i.For S r) {value : Object}
    (hv : (guestWire S).value f value) (token : String) (now : Nat) :
    wp (receive S.python token value now)
      (fun _ b' => b'.Live S H.opened ∧ Served S H b b' ∧ b'.frames = b.frames)
      (fun _ b' => Served S H b b') b := by
  rw [receive.eq_def]
  split
  · simp only [wp_bind, wp_get]
    split
    · rename_i hs
      exact receiveWelcome_wp h hs hf hv token
    · rename_i session hs
      refine wp_ite (fun hsession => ?_) fun _ => .refl b
      refine wp_ite (fun htype => ?_) fun _ => .refl b
      exact receiveResponse_wp h hs hf hfor hv hsession htype now
  · exact .refl b

/-! ### The port -/

/-- The parts of `splitlines` make up the data, and a newline ends a part. -/
theorem splitlines_spec {line : Data} (hl : 10 ∉ line) (data : Data) :
    (splitlines line data).flatten = line ++ data ∧
      ∀ part ∈ splitlines line data, 10 ∉ part.dropLast := by
  induction data generalizing line with
  | nil =>
      rw [splitlines]
      split
      · rename_i he
        simp [List.isEmpty_iff.mp he]
      · exact ⟨by simp, by simpa using fun hm => hl (List.mem_of_mem_dropLast hm)⟩
  | cons c rest ih =>
      rw [splitlines]
      split
      · obtain ⟨hf, hp⟩ := ih (by simp : (10 : UInt8) ∉ ([] : Data))
        refine ⟨by simp [hf], ?_⟩
        intro part hpart
        rcases List.mem_cons.mp hpart with rfl | hpart
        · simpa using hl
        · exact hp part hpart
      · rename_i hc
        have hc10 : 10 ∉ line ++ [c] := by
          simp only [List.mem_append, List.mem_singleton, not_or]
          exact ⟨hl, fun he => hc (.inl he.symm)⟩
        obtain ⟨hf, hp⟩ := ih hc10
        exact ⟨by rw [hf]; simp, hp⟩

/-- A part of the data extends the line that is begun, or ends it with an object. -/
theorem feed_eq_ok {P : Python} {buffer part buffer' : Data} {value : Option Object}
    (hb : 10 ∉ buffer) (hp : 10 ∉ part.dropLast) (h : feed P buffer part = .ok (buffer', value)) :
    (value = none ∧ buffer' = buffer ++ part ∧ 10 ∉ buffer') ∨
      ∃ l v, value = some v ∧ buffer' = [] ∧ part = l ++ [10] ∧ 10 ∉ buffer ++ l ∧
        P.loads (buffer ++ l ++ [10]) = .ok (.obj v) := by
  have hcases : (10 ∉ buffer ++ part ∧ (buffer ++ part).getLast? ≠ some 10) ∨
      ∃ l, part = l ++ [10] ∧ 10 ∉ buffer ++ l := by
    rcases List.eq_nil_or_concat part with rfl | ⟨l, c, rfl⟩
    · refine .inl ⟨by simpa using hb, fun hlast => hb ?_⟩
      simpa using List.mem_of_getLast? hlast
    · rw [List.concat_eq_append, List.dropLast_concat] at hp
      rw [List.concat_eq_append]
      by_cases hc : c = 10
      · subst hc
        exact .inr ⟨l, rfl, by simp [hb, hp]⟩
      · exact .inl ⟨by simp [hb, hp, Ne.symm hc], by simp [hc]⟩
  rw [feed] at h
  split at h
  · cases h
  · rcases hcases with ⟨hno, hlast⟩ | ⟨l, rfl, hl⟩
    · rw [if_neg hlast] at h
      cases h
      exact .inl ⟨rfl, rfl, hno⟩
    · rw [if_pos (by simp)] at h
      split at h
      · rename_i v hv
        cases h
        rw [← List.append_assoc] at hv
        exact .inr ⟨l, v, rfl, rfl, rfl, hl, hv⟩
      · cases h
      · cases h

/-- **Reading the port.**  The frames among the bytes are handled one after the other. -/
theorem readPort_wp {written : List HostFrame} (token : String) (now : Nat) (parts : List Data)
    (hparts : ∀ part ∈ parts, 10 ∉ part.dropLast) {rest : Data} {hs : List HostFrame}
    (h : b.Live S H.opened) (hb : 10 ∉ b.frames)
    (hcar : (guestWire S).Carries hs (b.frames ++ (parts.flatten ++ rest)))
    (hsub : ∀ f ∈ hs, f ∈ written) (hsound : ∀ f ∈ written, f.Sound H)
    (hfor : ∀ i ∈ H.invocations, ∃ r, .request r ∈ b.sent ∧ i.For S r) :
    wp (readPort S.python token now parts)
      (fun _ b' => b'.Live S H.opened ∧ Served S H b b' ∧ 10 ∉ b'.frames ∧
        ∃ hs', (guestWire S).Carries hs' (b'.frames ++ rest) ∧ ∀ f ∈ hs', f ∈ written)
      (fun _ b' => Served S H b b') b := by
  induction parts generalizing b hs with
  | nil => exact ⟨h, .refl b, hb, hs, hcar, hsub⟩
  | cons part parts ih =>
      have hpart := hparts part List.mem_cons_self
      have hrest : ∀ part ∈ parts, 10 ∉ part.dropLast := fun p hp =>
        hparts p (List.mem_cons_of_mem _ hp)
      simp only [readPort, wp_bind, wp_get]
      refine wp_fromExcept (fun fed hfed => ?_) fun _ _ => .refl b
      obtain ⟨buffer, value⟩ := fed
      simp only [wp_set]
      have hlive : ({ b with frames := buffer } : Broker).Live S H.opened :=
        ⟨{ h.core with }, h.nonce, h.session, h.own, h.pending, h.known⟩
      have hserved : Served S H b { b with frames := buffer } :=
        ⟨rfl, rfl, rfl, rfl, fun _ hd => .inl hd⟩
      rcases feed_eq_ok hb hpart hfed with
        ⟨rfl, rfl, hno⟩ | ⟨l, v, rfl, rfl, rfl, hl, hloads⟩
      · refine wp_mono (ih hrest hlive hno (by simpa using hcar) hsub hfor) ?_ ?_
        · rintro _ b' ⟨hb', hserved', hrest'⟩
          exact ⟨hb', hserved.trans hserved', hrest'⟩
        · rintro _ b' hserved'
          exact hserved.trans hserved'
      · have hcar' : (guestWire S).Carries hs
            ((b.frames ++ l) ++ 10 :: (parts.flatten ++ rest)) := by simpa using hcar
        obtain ⟨f, hs', rfl, hread, hnext⟩ := hcar'.read_line hl
        have hvalue : (guestWire S).value f v := by
          refine hread v ?_
          change S.toGuest.read (b.frames ++ l) = some v
          rw [S.toGuest_read, hloads]
          rfl
        have hf : f.Sound H := hsound f (hsub f List.mem_cons_self)
        dsimp only
        rw [wp_bind]
        refine wp_mono (receive_wp hlive hf hfor hvalue token now) ?_ ?_
        · rintro _ b₁ ⟨hb₁, hserved₁, hframes⟩
          have hframes : b₁.frames = [] := hframes
          have hsent : b₁.sent = b.sent := hserved₁.sent
          refine wp_mono (ih hrest hb₁ (by simp [hframes]) (by rw [hframes]; exact hnext)
            (fun f hf => hsub f (List.mem_cons_of_mem _ hf)) (by rw [hsent]; exact hfor)) ?_ ?_
          · rintro _ b' ⟨hb', hserved', hrest'⟩
            exact ⟨hb', (hserved.trans hserved₁).trans hserved', hrest'⟩
          · rintro _ b' hserved'
            exact (hserved.trans hserved₁).trans hserved'
        · rintro _ b' hserved'
          exact hserved.trans hserved'

/-! ### Deadlines, start and more sessions -/

/-- Closing several clients keeps a broker running. -/
theorem Live.closeClients {opened : List Opened} (h : b.Live S opened) (l : List (Nat × Record)) :
    (l.foldl (fun b e => b.closeClient e.1) b).Live S opened ∧
      Queues S b (l.foldl (fun b e => b.closeClient e.1) b) := by
  induction l generalizing b with
  | nil => exact ⟨h, .of_eq rfl rfl rfl rfl⟩
  | cons e l ih =>
      obtain ⟨hlive, hq⟩ := ih (h.closeClient e.1)
      exact ⟨hlive, (Queues.closeClient b e.1).trans hq⟩

/-- Deadlines close clients, or end the broker. -/
theorem expire_wp {opened : List Opened} (h : b.Live S opened) (now : Nat) :
    wp (expire now) (fun _ b' => b'.Live S opened ∧ Queues S b b') (fun _ b' => b' = b) b := by
  simp only [expire, wp_bind, wp_get]
  refine wp_ite (fun _ => rfl) fun _ => wp_ite (fun _ => rfl) fun _ => ?_
  exact h.closeClients _

/-- **A new broker** says hello. -/
theorem start_wp {opened : List Opened} (h : b.Core S opened) (token : String) (now : Nat)
    (b₀ : Broker) :
    wp (b.start S.python token now)
      (fun _ b' => b'.Live S opened ∧ b'.frames = [] ∧ b'.deliveries = b.deliveries ∧
        ∃ f x, (hostWire S).writes f x ∧ b'.sent = b.sent ++ [f] ∧ b'.outgoing = x ++ [10])
      (fun _ b' => b'.Core S opened ∧ b'.sent = b.sent ∧ b'.deliveries = b.deliveries ∧
        b'.outgoing = []) b₀ := by
  have hcore : ∀ r, .request r ∈ b.sent →
      (∃ o ∈ opened, o.session = r.session ∧ o.nonce = S.python.uuid4 r.broker) ∧
        r.broker ≤ b.index + 1 ∧ r.client < b.accepted := by
    intro r hr
    obtain ⟨ho, hi, hc⟩ := h.requests r hr
    exact ⟨ho, hi.trans (Nat.le_succ _), hc⟩
  simp only [start, wp_bind, wp_set, wp_modify]
  refine wp_mono (send_wp ..) ?_ ?_
  · rintro _ _ ⟨data, deadline, hdata, -, rfl⟩
    obtain ⟨x, hx, rfl⟩ := encode_eq_ok hdata
    have hsent : ∀ r, GuestFrame.request r ∈ b.sent ++
        [.hello (S.python.uuid4 (b.index + 1)) token] → .request r ∈ b.sent := by
      intro r hr
      rcases List.mem_append.mp hr with hr | hr
      · exact hr
      · cases List.mem_singleton.mp hr
    -- A hello is no request.
    have hrequests : requestsOf (b.sent ++ [.hello (S.python.uuid4 (b.index + 1)) token]) =
        requestsOf b.sent := by
      rw [requestsOf_append]
      exact List.append_nil _
    refine ⟨?_, rfl, rfl, .hello (S.python.uuid4 (b.index + 1)) token, x, S.toHost_writes hx,
      rfl, rfl⟩
    exact
      { core :=
          { requests := fun r hr => hcore r (hsent r hr)
            keys := by
              change ((requestsOf (b.sent ++ _)).map _).Nodup
              rw [hrequests]
              exact h.keys
            clients := by
              change ((requestsOf (b.sent ++ _)).map _).Nodup
              rw [hrequests]
              exact h.clients }
        nonce := rfl
        session := by
          intro s hs
          cases hs
        own := by
          intro r hr hb
          have hle := (h.requests r (hsent r hr)).2.1
          have hb : r.broker = b.index + 1 := hb
          omega
        pending := by
          intro e he
          cases he
        known := by
          intro e he
          cases he }
  · rintro _ _ rfl
    exact ⟨⟨hcore, h.keys, h.clients⟩, rfl, rfl, rfl⟩

theorem Core.mono {opened opened' : List Opened} (h : b.Core S opened) (ho : opened ⊆ opened') :
    b.Core S opened' where
  requests := by
    intro r hr
    obtain ⟨⟨o, hm, hs⟩, hrest⟩ := h.requests r hr
    exact ⟨⟨o, ho hm, hs⟩, hrest⟩
  keys := h.keys
  clients := h.clients

theorem Live.mono {opened opened' : List Opened} (h : b.Live S opened) (ho : opened ⊆ opened') :
    b.Live S opened' where
  core := h.core.mono ho
  nonce := h.nonce
  session := by
    intro s hs
    obtain ⟨o, hm, hrest⟩ := h.session s hs
    exact ⟨o, ho hm, hrest⟩
  own := h.own
  pending := h.pending
  known := h.known

end

end Broker

end Ashacky.Control
