import Ashacky.Control.Link
import Ashacky.Control.Clients

/-!
# Control — correlation end to end

What holds of the broker, the channel and the bytes between them along every run.

* `System.Inv`: the invariants of the two ends; the bytes on their way to the host carry frames that
  brokers have sent, and those on their way to the guest carry frames that the host has written.
* `System.Inv.step`, `System.inv_of_run`: every event keeps it, so it holds in every run.
* `control_correlation`: what a client is handed belongs to its own request; a request reaches a
  handler at most once; and a result is handed out only in the session of its own generation.
-/

namespace Ashacky.Control
open Ashacky.Support

namespace System

/-- What holds of the system. -/
structure Inv (S : Setting) (s : System) : Prop where
  channel : s.channel.Inv S s.broker.sent
  core : s.broker.Core S s.channel.history.opened
  live : s.alive = true → s.broker.Live S s.channel.history.opened
  idle : s.alive = false → s.broker.outgoing = []
  toHost : ∃ fs, (hostWire S).Carries fs (s.channel.buffer ++ (s.toHost ++ s.broker.outgoing)) ∧
    ∀ f ∈ fs, f ∈ s.broker.sent
  buffer : 10 ∉ s.channel.buffer
  toGuest : ∃ hs, (guestWire S).Carries hs (s.broker.frames ++ s.toGuest) ∧
    ∀ f ∈ hs, f ∈ s.written
  frames : 10 ∉ s.broker.frames
  written : ∀ f ∈ s.written, f.Sound s.channel.history
  deliveries : ∀ d ∈ s.broker.deliveries, Delivered S s.broker.sent s.channel.history d

section

variable {S : Setting} {s : System}

theorem inv_initial (S : Setting) : initial.Inv S where
  channel := ControlChannel.inv_initial S
  core := ⟨by simp [initial], by simp [initial, requestsOf], by simp [initial, requestsOf]⟩
  live := by simp [initial]
  idle := fun _ => rfl
  toHost := ⟨[], .nil, by simp⟩
  buffer := by simp [initial, ControlChannel.initial]
  toGuest := ⟨[], .nil, by simp⟩
  frames := by simp [initial]
  written := by simp [initial]
  deliveries := by simp [initial]

/-- Sessions are opened once. -/
theorem Inv.opened_nodup (h : s.Inv S) : (s.channel.history.opened.map Opened.session).Nodup := by
  rw [h.channel.sessions]
  exact List.Nodup.map_on (fun _ _ _ _ he => S.foundation.uuidString_inj he) List.nodup_range

/-! ### Events at the guest -/

/-- The stream to the host after frames have been queued. -/
theorem Inv.queued (h : s.Inv S) {b : Broker} (hq : Broker.Queues S s.broker b) :
    s.broker.sent ⊆ b.sent ∧
      ∃ fs, (hostWire S).Carries fs (s.channel.buffer ++ (s.toHost ++ b.outgoing)) ∧
        ∀ f ∈ fs, f ∈ b.sent := by
  obtain ⟨new, hsent, hcar⟩ := hq.queued
  obtain ⟨fs, hfs, hmem⟩ := h.toHost
  rw [← List.append_assoc] at hfs
  refine ⟨by rw [hsent]; exact List.subset_append_left _ _, fs ++ new, ?_, ?_⟩
  · rw [← List.append_assoc]
    exact hcar hfs
  · intro f hf
    rw [hsent]
    rcases List.mem_append.mp hf with hf | hf
    · exact List.mem_append_left _ (hmem f hf)
    · exact List.mem_append_right _ hf

/-- A method that talks to a client. -/
theorem Inv.queues (h : s.Inv S) (ha : s.alive = true) {b : Broker}
    (hb : b.Live S s.channel.history.opened) (hq : Broker.Queues S s.broker b) :
    ({ s with broker := b } : System).Inv S := by
  obtain ⟨hsub, hstream⟩ := h.queued hq
  exact
    { channel := h.channel.mono hsub
      core := hb.core
      live := fun _ => hb
      idle := fun hd => by rw [ha] at hd; cases hd
      toHost := hstream
      buffer := h.buffer
      toGuest := by rw [hq.frames]; exact h.toGuest
      frames := by rw [hq.frames]; exact h.frames
      written := h.written
      deliveries := by
        rw [hq.deliveries]
        exact fun d hd => (h.deliveries d hd).mono hsub (.refl _) }

/-- What is left of the stream to the host when the broker ends. -/
theorem carries_cut {fs : List GuestFrame} {bytes outgoing : Data}
    (h : (hostWire S).Carries fs (bytes ++ outgoing)) :
    ∃ fs', (hostWire S).Carries fs' (bytes ++ []) ∧ fs' ⊆ fs := by
  obtain ⟨fs', hsub, hc⟩ := h.take bytes.length
  rw [List.take_left] at hc
  exact ⟨fs', by rw [List.append_nil]; exact hc, hsub.subset⟩

/-- The broker ends, and what it had read of a line with it. -/
theorem Inv.stops (h : s.Inv S) {b : Broker} {toGuest : Data}
    (hcore : b.Core S s.channel.history.opened) (hsub : s.broker.sent ⊆ b.sent)
    (hstream : ∃ fs, (hostWire S).Carries fs (s.channel.buffer ++ (s.toHost ++ b.outgoing)) ∧
      ∀ f ∈ fs, f ∈ b.sent)
    (hguest : ∃ hs, (guestWire S).Carries hs toGuest ∧ ∀ f ∈ hs, f ∈ s.written)
    (hdel : ∀ d ∈ b.deliveries, Delivered S b.sent s.channel.history d) :
    ({ s with broker := b.stop, alive := false, toGuest } : System).Inv S where
  channel := h.channel.mono hsub
  core := hcore.stop
  live := by simp
  idle := fun _ => rfl
  toHost := by
    obtain ⟨fs, hfs, hmem⟩ := hstream
    rw [← List.append_assoc] at hfs
    obtain ⟨fs', hcut, hsub'⟩ := carries_cut hfs
    exact ⟨fs', by rw [← List.append_assoc]; exact hcut, fun f hf => hmem f (hsub' hf)⟩
  buffer := h.buffer
  toGuest := hguest
  frames := by simp [Broker.stop]
  written := h.written
  deliveries := hdel

/-- What is left of the stream to the guest, from any byte on. -/
theorem Inv.guest_drop (h : s.Inv S) (n : Nat) :
    ∃ hs, (guestWire S).Carries hs (s.toGuest.drop n) ∧ ∀ f ∈ hs, f ∈ s.written := by
  obtain ⟨hs, hcar, hmem⟩ := h.toGuest
  obtain ⟨hs', hsub, hd⟩ := hcar.drop (s.broker.frames.length + n)
  rw [← List.drop_drop, List.drop_left] at hd
  exact ⟨hs', hd, fun f hf => hmem f (hsub.subset hf)⟩

/-- A method that talks to a client, or ends the broker. -/
theorem Inv.guest_client (h : s.Inv S) (ha : s.alive = true) {x : Act Broker Unit}
    (hx : wp x
      (fun _ b => b.Live S s.channel.history.opened ∧ Broker.Queues S s.broker b)
      (fun _ b => b.Core S s.channel.history.opened ∧ Broker.Queues S s.broker b) s.broker) :
    (s.guest x).Inv S := by
  rw [guest]
  split
  · rename_i b hrun
    obtain ⟨hb, hq⟩ := hx.ok hrun
    exact h.queues ha hb hq
  · rename_i e b hrun
    obtain ⟨hb, hq⟩ := hx.error hrun
    obtain ⟨hsub, hstream⟩ := h.queued hq
    refine h.stops hb hsub hstream (h.guest_drop 0) ?_
    rw [hq.deliveries]
    exact fun d hd => (h.deliveries d hd).mono hsub (.refl _)

/-- The port yields bytes to the broker. -/
theorem Inv.readPort (h : s.Inv S) (ha : s.alive = true) (count now : Nat) :
    (({ s with toGuest := s.toGuest.drop count } : System).guest
      (Broker.readPort S.python S.token now (splitlines [] (s.toGuest.take count)))).Inv S := by
  obtain ⟨hflat, hparts⟩ := Broker.splitlines_spec
    (by simp : (10 : UInt8) ∉ ([] : Data)) (s.toGuest.take count)
  obtain ⟨hs, hcar, hmem⟩ := h.toGuest
  have hcar' : (guestWire S).Carries hs (s.broker.frames ++
      ((splitlines [] (s.toGuest.take count)).flatten ++ s.toGuest.drop count)) := by
    rw [hflat, List.nil_append, List.take_append_drop]
    exact hcar
  have hfor : ∀ i ∈ s.channel.history.invocations, ∃ r, .request r ∈ s.broker.sent ∧ i.For S r :=
    fun i hi => (h.channel.invoked i hi).request
  have hw := Broker.readPort_wp S.token now _ hparts (h.live ha) h.frames hcar' hmem h.written hfor
  have hdel : ∀ b, Broker.Served S s.channel.history s.broker b →
      ∀ d ∈ b.deliveries, Delivered S b.sent s.channel.history d := by
    intro b hserved d hd
    rw [hserved.sent]
    rcases hserved.deliveries d hd with hd | hd
    · exact h.deliveries d hd
    · exact hd
  rw [guest]
  split
  · rename_i b hrun
    obtain ⟨hb, hserved, hframes, hguest⟩ := hw.ok hrun
    exact
      { channel := by rw [hserved.sent]; exact h.channel
        core := hb.core
        live := fun _ => hb
        idle := fun hd => by
          have hd : s.alive = false := hd
          rw [ha] at hd
          cases hd
        toHost := by rw [hserved.sent, hserved.outgoing]; exact h.toHost
        buffer := h.buffer
        toGuest := hguest
        frames := hframes
        written := h.written
        deliveries := hdel b hserved }
  · rename_i e b hrun
    have hserved := hw.error hrun
    refine h.stops (hserved.core h.core) (by rw [hserved.sent]; exact fun _ hf => hf) ?_
      (h.guest_drop count) (hdel b hserved)
    rw [hserved.sent, hserved.outgoing]
    exact h.toHost

/-- A new broker starts, somewhere in what the host has written. -/
theorem Inv.start (h : s.Inv S) (ha : s.alive = false) (lost now : Nat) :
    (({ s with alive := true, toGuest := s.toGuest.drop lost } : System).guest
      (s.broker.start S.python S.token now)).Inv S := by
  have hw := Broker.start_wp h.core S.token now s.broker
  obtain ⟨fs, hfs, hmem⟩ := h.toHost
  rw [h.idle ha, List.append_nil] at hfs
  rw [guest]
  split
  · rename_i b hrun
    obtain ⟨hb, hframes, hdel, f, x, hwrites, hsent, hout⟩ := hw.ok hrun
    have hsub : s.broker.sent ⊆ b.sent := by
      rw [hsent]
      exact List.subset_append_left _ _
    exact
      { channel := h.channel.mono hsub
        core := hb.core
        live := fun _ => hb
        idle := by
          intro hd
          cases hd
        toHost := by
          refine ⟨fs ++ [f], ?_, ?_⟩
          · rw [hout, ← List.append_assoc]
            exact hfs.append hwrites
          · intro g hg
            rw [hsent]
            rcases List.mem_append.mp hg with hg | hg
            · exact List.mem_append_left _ (hmem g hg)
            · exact List.mem_append_right _ hg
        buffer := h.buffer
        toGuest := by
          rw [hframes]
          exact h.guest_drop lost
        frames := by simp [hframes]
        written := h.written
        deliveries := by
          rw [hdel]
          exact fun d hd => (h.deliveries d hd).mono hsub (.refl _) }
  · rename_i e b hrun
    obtain ⟨hb, hsent, hdel, hout⟩ := hw.error hrun
    refine h.stops hb (by rw [hsent]; exact fun _ hf => hf) ?_ (h.guest_drop lost) ?_
    · rw [hsent, hout, List.append_nil]
      exact ⟨fs, hfs, hmem⟩
    · rw [hsent, hdel]
      exact h.deliveries

/-! ### Events at the host -/

theorem mem_pick {lines : List Line} {taken : List Bool} {line : Line}
    (h : line ∈ pick lines taken) : line ∈ lines := by
  induction lines generalizing taken with
  | nil => cases h
  | cons l lines ih =>
      cases taken with
      | nil => cases h
      | cons t taken =>
          rw [pick] at h
          split at h
          · rcases List.mem_cons.mp h with rfl | h
            · exact List.mem_cons_self
            · exact List.mem_cons_of_mem _ (ih h)
          · exact List.mem_cons_of_mem _ (ih h)

/-- The lines that the port takes follow those on their way. -/
theorem carries_lines {H : History} (lines : List Line)
    (hl : ∀ line ∈ lines, line.Sound S H) {hs : List HostFrame} {bytes : Data}
    (h : (guestWire S).Carries hs bytes) :
    (guestWire S).Carries (hs ++ lines.map Line.frame) (bytes ++ lines.flatMap Line.bytes) := by
  induction lines generalizing hs bytes with
  | nil => simpa using h
  | cons line lines ih =>
      obtain ⟨x, hx, hwrites⟩ := (hl line List.mem_cons_self).2
      have hnext := ih (fun l hm => hl l (List.mem_cons_of_mem _ hm)) (h.append hwrites)
      rw [← hx] at hnext
      simpa using hnext

/-- An event at the host, given what it does to the channel. -/
theorem Inv.host (h : s.Inv S) {c : ControlChannel} {toHost : Data} (taken : List Bool)
    (hc : c.Inv S s.broker.sent) (hH : s.channel.history.Continues c.history)
    (hb : 10 ∉ c.buffer)
    (hstream : ∃ fs, (hostWire S).Carries fs (c.buffer ++ (toHost ++ s.broker.outgoing)) ∧
      ∀ f ∈ fs, f ∈ s.broker.sent) :
    (({ s with toHost } : System).host c taken).Inv S where
  channel := { hc with output := fun line hl => by cases hl }
  core := h.core.mono hH.opened
  live ha := (h.live ha).mono hH.opened
  idle := h.idle
  toHost := hstream
  buffer := hb
  toGuest := by
    obtain ⟨hs, hcar, hmem⟩ := h.toGuest
    have hlines := carries_lines (pick c.output taken)
      (fun line hl => hc.output line (mem_pick hl)) hcar
    rw [List.append_assoc] at hlines
    refine ⟨hs ++ (pick c.output taken).map Line.frame, hlines, fun f hf => ?_⟩
    rcases List.mem_append.mp hf with hf | hf
    · exact List.mem_append_left _ (hmem f hf)
    · exact List.mem_append_right _ hf
  frames := h.frames
  written := by
    intro f hf
    rcases List.mem_append.mp hf with hf | hf
    · exact (h.written f hf).mono hH
    · obtain ⟨line, hl, rfl⟩ := List.mem_map.mp hf
      exact (hc.output line (mem_pick hl)).1
  deliveries d hd := (h.deliveries d hd).mono (fun _ hr => hr) hH

/-- The channel gives up what it has of a line, or keeps it. -/
theorem Inv.buffered (h : s.Inv S) {c : ControlChannel}
    (hb : c.buffer = s.channel.buffer ∨ c.buffer = []) :
    10 ∉ c.buffer ∧
      ∃ fs, (hostWire S).Carries fs (c.buffer ++ (s.toHost ++ s.broker.outgoing)) ∧
        ∀ f ∈ fs, f ∈ s.broker.sent := by
  obtain ⟨fs, hfs, hmem⟩ := h.toHost
  rcases hb with hb | hb
  · rw [hb]
    exact ⟨h.buffer, fs, hfs, hmem⟩
  · obtain ⟨fs', hsub, hd⟩ := hfs.drop s.channel.buffer.length
    rw [List.drop_left] at hd
    rw [hb]
    exact ⟨by simp, fs', hd, fun f hf => hmem f (hsub.subset hf)⟩

/-! ### Runs -/

/-- **Every event keeps the invariant.** -/
theorem Inv.step (h : s.Inv S) {e : Event} {s' : System} (hstep : s.next S e = some s') :
    s'.Inv S := by
  -- an event at the host that leaves the bytes on their way as they are
  have hhost : ∀ (c : ControlChannel) (taken : List Bool), c.Inv S s.broker.sent →
      s.channel.history.Continues c.history →
      (c.buffer = s.channel.buffer ∨ c.buffer = []) → (s.host c taken).Inv S := by
    intro c taken hc hH hb
    obtain ⟨hb', hstream⟩ := h.buffered hb
    exact h.host taken hc hH hb' hstream
  cases e with
  | start lost now =>
      rw [next] at hstep
      split at hstep
      · cases hstep
      · rename_i ha
        cases hstep
        exact h.start (by simpa using ha) lost now
  | exit =>
      rw [next] at hstep
      split at hstep
      · cases hstep
        exact h.stops h.core (fun _ hf => hf) h.toHost (h.guest_drop 0) h.deliveries
      · cases hstep
  | accept service uid now =>
      rw [next] at hstep
      split at hstep
      · rename_i ha
        cases hstep
        refine h.queues ha ((h.live ha).accept service uid now) ?_
        rw [Broker.accept]
        split <;> exact .of_eq rfl rfl rfl rfl
      · cases hstep
  | readClient client data now =>
      rw [next] at hstep
      split at hstep
      · rename_i ha
        cases hstep
        exact h.guest_client ha.1
          (Broker.readClient_wp h.opened_nodup client data now (h.live ha.1))
      · cases hstep
  | writeClient client count =>
      rw [next] at hstep
      split at hstep
      · rename_i ha
        cases hstep
        refine h.queues ha.1 ((h.live ha.1).writeClient client count) ?_
        rw [Broker.writeClient]
        split
        · exact .of_eq rfl rfl rfl rfl
        · split
          · exact .closeClient _ client
          · exact .of_eq rfl rfl rfl rfl
      · cases hstep
  | closeClient client =>
      rw [next] at hstep
      split at hstep
      · rename_i ha
        cases hstep
        exact h.queues ha ((h.live ha).closeClient client) (.closeClient _ client)
      · cases hstep
  | readPort count now =>
      rw [next] at hstep
      split at hstep
      · rename_i ha
        cases hstep
        exact h.readPort ha count now
      · cases hstep
  | writePort count =>
      rw [next] at hstep
      split at hstep
      · rename_i ha
        cases hstep
        have hb := h.live ha
        exact
          { channel := h.channel
            core := { h.core with }
            live := fun _ => ⟨{ h.core with }, hb.nonce, hb.session, hb.own, hb.pending, hb.known⟩
            idle := fun hd => by
              have hd : s.alive = false := hd
              rw [ha] at hd
              cases hd
            toHost := by
              rw [List.append_assoc, List.take_append_drop]
              exact h.toHost
            buffer := h.buffer
            toGuest := h.toGuest
            frames := h.frames
            written := h.written
            deliveries := h.deliveries }
      · cases hstep
  | expire now =>
      rw [next] at hstep
      split at hstep
      · rename_i ha
        cases hstep
        refine h.guest_client ha (wp_mono (Broker.expire_wp (h.live ha) now) (fun _ _ hb => hb) ?_)
        rintro _ _ rfl
        exact ⟨h.core, .of_eq rfl rfl rfl rfl⟩
      · cases hstep
  | receive count taken =>
      rw [next] at hstep
      cases hstep
      obtain ⟨fs, hfs, hmem⟩ := h.toHost
      have hfs' : (hostWire S).Carries fs (s.channel.buffer ++
          (s.toHost.take count ++ (s.toHost.drop count ++ s.broker.outgoing))) := by
        rw [← List.append_assoc (s.toHost.take count), List.take_append_drop]
        exact hfs
      obtain ⟨hc, hH, hb, hstream⟩ := h.channel.receive S.token h.buffer hfs' hmem
      exact h.host taken hc hH hb hstream
  | wrote n success taken =>
      rw [next] at hstep
      split at hstep
      · cases hstep
        obtain ⟨hH, hb⟩ := ControlChannel.wrote_continues
          (c := { s.channel with writes := s.channel.writes.eraseIdx n }) _ _ success
        have herase : ControlChannel.Inv S s.broker.sent
            { s.channel with writes := s.channel.writes.eraseIdx n } :=
          ⟨h.channel.sessions, h.channel.current, h.channel.invoked, h.channel.distinct,
            h.channel.queue, h.channel.output⟩
        exact hhost _ taken (herase.wrote _ _ success) hH hb
      · cases hstep
  | writeTimeout n taken =>
      rw [next] at hstep
      split at hstep
      · cases hstep
        obtain ⟨hH, hb⟩ := ControlChannel.writeTimeout_continues (c := s.channel) _
        exact hhost _ taken (h.channel.writeTimeout _) hH hb
      · cases hstep
  | complete n result taken =>
      rw [next] at hstep
      split at hstep
      · cases hstep
        obtain ⟨hH, hb⟩ := ControlChannel.complete_continues (c := s.channel) S.foundation n result
        exact hhost _ taken (h.channel.complete n result) hH hb
      · cases hstep
  | close =>
      rw [next] at hstep
      cases hstep
      obtain ⟨hb, hstream⟩ := h.buffered (c := s.channel.close) (.inr rfl)
      exact
        { channel := h.channel.close
          core := h.core
          live := h.live
          idle := h.idle
          toHost := hstream
          buffer := hb
          toGuest := h.toGuest
          frames := h.frames
          written := h.written
          deliveries := h.deliveries }

/-- **The invariant holds in every run.** -/
theorem inv_of_run {t : List (Event × Unit)} (h : Steps (Step S) initial t s) : s.Inv S :=
  h.invariant (fun hs hstep => hs.step hstep) (inv_initial S)

/-! ### Requests and invocations -/

/-- A request is handed to a handler once. -/
theorem Inv.invoked_once (h : s.Inv S) {n n' : Nat} {i i' : Invocation} {r : LocalRequest}
    (hn : s.channel.history.invocations[n]? = some i)
    (hn' : s.channel.history.invocations[n']? = some i') (hi : i.For S r) (hi' : i'.For S r) :
    n = n' := by
  have hkey : (s.channel.history.invocations.map fun i => (i.session, i.id))[n]? =
      (s.channel.history.invocations.map fun i => (i.session, i.id))[n']? := by
    rw [List.getElem?_map, List.getElem?_map, hn, hn', Option.map_some, Option.map_some, hi.1,
      hi.2.1, hi'.1, hi'.2.1]
  refine (List.getElem?_inj ?_ h.channel.distinct).mp hkey
  rw [List.length_map]
  exact (List.getElem?_eq_some_iff.mp hn).1

/-- The session of a request was opened for its broker, in the generation of its invocation. -/
theorem Inv.opened_of_for (h : s.Inv S) {i : Invocation} {r : LocalRequest}
    (hi : i ∈ s.channel.history.invocations) (hr : .request r ∈ s.broker.sent) (hf : i.For S r) :
    ∃ o ∈ s.channel.history.opened,
      o.session = r.session ∧ o.nonce = S.python.uuid4 r.broker ∧ o.generation = i.generation := by
  obtain ⟨o, ho, hos, hog⟩ := (h.channel.invoked i hi).opened
  obtain ⟨⟨o', ho', hos', hon⟩, -, -⟩ := h.core.requests r hr
  obtain rfl : o = o' := List.inj_on_of_nodup_map h.opened_nodup ho ho'
    (hos.trans (hf.1.trans hos'.symm))
  exact ⟨o, ho, hos', hon, hog⟩

end

end System

/-- **Control RPC correlation.**  In every run:

* a client that is handed the payload of a host response has made one request; the payload is the
  result of the invocation made for that request, as the guest reads it, or the host's refusal of
  it.  If it is a result, the session of the request was opened for the client's broker in the
  generation of the invocation;
* a session is opened once, so in one generation;
* a client makes at most one request;
* a handler is invoked for a request that was sent, and for each request at most once. -/
theorem control_correlation (S : Setting) {t : List (Event × Unit)} {s : System}
    (h : Steps (System.Step S) System.initial t s) :
    (∀ d ∈ s.broker.deliveries, ∃ r, .request r ∈ s.broker.sent ∧
        r.broker = d.broker ∧ r.client = d.client ∧
        ((∃ n i result, s.channel.history.invocations[n]? = some i ∧ i.For S r ∧
            (n, result) ∈ s.channel.history.results ∧
            S.toGuest.cross (.obj result) = .obj d.payload ∧
            ∃ o ∈ s.channel.history.opened, o.session = r.session ∧
              o.nonce = S.python.uuid4 d.broker ∧ o.generation = i.generation) ∨
          ∃ refusal, IsRefusal refusal ∧
            ⟨r.session, r.id, refusal⟩ ∈ s.channel.history.refusals ∧
            S.toGuest.cross (.obj refusal) = .obj d.payload)) ∧
      (s.channel.history.opened.map Opened.session).Nodup ∧
      ((requestsOf s.broker.sent).map LocalRequest.client).Nodup ∧
      (∀ i ∈ s.channel.history.invocations, ∃ r, .request r ∈ s.broker.sent ∧ i.For S r) ∧
      ∀ r, .request r ∈ s.broker.sent → ∀ (n n' : Nat) (i i' : Invocation),
        s.channel.history.invocations[n]? = some i →
        s.channel.history.invocations[n']? = some i' → i.For S r → i'.For S r → n = n' := by
  have hinv := System.inv_of_run h
  refine ⟨?_, hinv.opened_nodup, hinv.core.clients,
    fun i hi => (hinv.channel.invoked i hi).request,
    fun r _ n n' i i' hn hn' hi hi' => hinv.invoked_once hn hn' hi hi'⟩
  intro d hd
  obtain ⟨r, hr, hbroker, hclient, ⟨n, i, result, hn, hf, hresult, hp⟩ | hrefusal⟩ :=
    hinv.deliveries d hd
  · have ho := hinv.opened_of_for (List.mem_of_getElem? hn) hr hf
    rw [hbroker] at ho
    exact ⟨r, hr, hbroker, hclient, .inl ⟨n, i, result, hn, hf, hresult, hp, ho⟩⟩
  · exact ⟨r, hr, hbroker, hclient, .inr hrefusal⟩

/-! ### A run with a delivery -/

namespace Sample

/-- The bytes of a text. -/
def utf8 (text : String) : Data := text.toByteArray.data.toList

def token : String := "2f6b9c1e7d4a4f0d8c35b1e09a7d6c42"

def nonce : String := "6f1ed0c4-5a3b-4c8e-9d27-3b1f0a9c4e71"

def session : String := "0B2C77E1-94D6-4E1A-8F3C-5D2A6B7E9F04"

def status : Object := [("action", .str "status")]

def statusText : Data := utf8 "\x7b\"action\":\"status\"\x7d"

def done : Object := [("ok", .bool true)]

/-- What the broker writes. -/
def hostTexts : Texts where
  table :=
    [((GuestFrame.hello nonce token).entries,
        utf8 "\x7b\"type\":\"hello\",\"nonce\":\"" ++ utf8 nonce ++
          utf8 "\",\"token\":\"" ++ utf8 token ++ utf8 "\",\"version\":1\x7d"),
      ((GuestFrame.request ⟨1, 0, session, 1, .host, status⟩).entries,
        utf8 "\x7b\"type\":\"request\",\"id\":1,\"service\":\"host\",\"payload\":" ++
          statusText ++ utf8 ",\"session\":\"" ++ utf8 session ++ utf8 "\",\"version\":1\x7d")]
  wellFormed := by decide +kernel
  nodup := by decide +kernel

/-- What the channel writes, and the client. -/
def guestTexts : Texts where
  table :=
    [((HostFrame.welcome nonce session token).entries,
        utf8 "\x7b\"nonce\":\"" ++ utf8 nonce ++ utf8 "\",\"session\":\"" ++ utf8 session ++
          utf8 "\",\"token\":\"" ++ utf8 token ++
          utf8 "\",\"type\":\"welcome\",\"version\":1\x7d"),
      ((HostFrame.response session 1 done none).entries,
        utf8 "\x7b\"id\":1,\"payload\":\x7b\"ok\":true\x7d,\"session\":\"" ++ utf8 session ++
          utf8 "\",\"type\":\"response\",\"version\":1\x7d"),
      (resetObject, resetText), (status, statusText)]
  wellFormed := by decide +kernel
  nodup := by decide +kernel

def loads (T : Texts) (l : Data) : Except Raised Json :=
  match T.read l.dropLast with
  | some m => .ok (.obj m)
  | none => .error .caught

theorem read_of_loads (T : Texts) (l : Data) :
    T.exchange.read l = (loads T (l ++ [10])).toOption.bind Json.object := by
  rw [loads, List.dropLast_concat]
  change T.read l = _
  cases T.read l with
  | none => rfl
  | some m => rfl

theorem read_of_jsonObject (T : Texts) (l : Data) :
    T.exchange.read l = ((T.read l).map Json.obj).bind Json.object := by
  change T.read l = _
  cases T.read l with
  | none => rfl
  | some m => rfl

def dumps (T : Texts) (compact : Bool) : Json → Except Raised Data
  | .obj m =>
      match if compact then T.write m else some (utf8 "\x7b\"ok\": true\x7d") with
      | some x => .ok x
      | none => .error .caught
  | _ => .error .caught

theorem writes_of_dumps (T : Texts) {m : Object} {x : Data} (h : dumps T true (.obj m) = .ok x) :
    T.exchange.writes m x := by
  rw [dumps, if_pos rfl] at h
  split at h
  · rename_i y hy
    rw [← Except.ok.inj h]
    exact Texts.mem_of_write hy
  · cases h

/-- The libraries, on these texts. -/
def setting : Setting where
  python :=
    { dumps := dumps hostTexts
      loads := loads guestTexts
      isUUID := fun s => s.length = 36
      str := fun j => j.string.getD ""
      uuid4 := fun n => "6f1ed0c4-5a3b-4c8e-9d27-3b1f0a9c4e7" ++ String.ofList (.replicate n '1')
      uuid4_inj := fun h => by simpa using congrArg String.length h }
  foundation :=
    { jsonObject := fun l => (hostTexts.read l).map .obj
      data := guestTexts.write
      isUUID := fun s => s.length = 36
      uuidString := fun n => session ++ String.ofList (.replicate n '0')
      uuidString_inj := fun h => by simpa using congrArg String.length h }
  token := token
  toHost := hostTexts.exchange
  toGuest := guestTexts.exchange
  toHost_writes := writes_of_dumps hostTexts
  toHost_read := read_of_jsonObject hostTexts
  toGuest_writes := Texts.mem_of_write
  toGuest_reset := List.mem_cons_of_mem _ (List.mem_cons_of_mem _ List.mem_cons_self)
  toGuest_read := read_of_loads guestTexts

/-- A client asks for the status, over a port that cuts the hello. -/
def events : List Event :=
  [.start 0 0, .writePort 40, .receive 10 [], .writePort 200, .receive 200 [true], .readPort 200 0,
    .wrote 0 true [], .accept .host 0 0, .readClient 0 (statusText ++ [10]) 1, .writePort 200,
    .receive 200 [], .complete 0 done [true], .readPort 200 2]

theorem delivered :
    ((System.initial.run setting events).any
      fun s => s.broker.deliveries.any fun d => d.payload = done) = true := by
  decide +kernel

end Sample

theorem control_correlation_status :
    ∃ t s, Steps (System.Step Sample.setting) System.initial t s ∧
      ∃ d ∈ s.broker.deliveries, d.payload = Sample.done ∧
        ∃ r i, .request r ∈ s.broker.sent ∧ r.client = d.client ∧
          i ∈ s.channel.history.invocations ∧ i.For Sample.setting r := by
  obtain ⟨s, hs, hany⟩ := (Option.any_eq_true ..).mp Sample.delivered
  obtain ⟨d, hd, hp⟩ := List.any_eq_true.mp hany
  have hrun := System.steps_of_run hs
  refine ⟨_, s, hrun, d, hd, of_decide_eq_true hp, ?_⟩
  obtain ⟨r, hr, -, hc, ⟨n, i, -, hn, hf, -⟩ | ⟨refusal, hrefusal, -, hcross⟩⟩ :=
    (control_correlation Sample.setting hrun).1 d hd
  · exact ⟨r, i, hr, hc, List.mem_of_getElem? hn, hf⟩
  · -- a refusal has another payload
    have hrefusal' : refusal = Sample.done :=
      (Json.obj.inj hcross).trans (of_decide_eq_true hp)
    rcases hrefusal with rfl | rfl
    · exact absurd hrefusal' (by decide)
    · exact absurd hrefusal' (by decide)

end Ashacky.Control
