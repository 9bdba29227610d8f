import Ashacky.Control.Bookkeeping

/-!
# Control — one client of the broker

What the bytes of one local client can do to the broker and to the other clients.  `step` closes a
client whose handler raises a `ValueError` or an `OSError`; anything else ends the broker.
`json.loads` raises a `RecursionError` on a text that is nested too deeply, and so does `json.dumps`
on such an object.

* `scan`: the lines that the handler completes, and what is left of the last one.
* `Overwhelms`: one of the lines that are parsed, or the request made of the first, is too deep.
* `receiveChunks_spec`: the handler raises to the end of the broker in that case, and in no other.
* `client_isolated_iff`: in all other cases the client is closed at most, and nothing else changes.
* `client_not_isolated`: a line of brackets ends the broker.
-/

namespace Ashacky.Control
open Ashacky.Support

/-- The lines that `Frames.feed` completes over the parts, each with its newline, and the buffer after
them unless it grows too long. -/
def scan (buffer : Data) : List Data → List Data × Option Data
  | [] => ([], some buffer)
  | part :: parts =>
      if (buffer ++ part).length > maxFrame + 1 then ([], none)
      else if (buffer ++ part).getLast? = some 10 then
        ((buffer ++ part) :: (scan [] parts).1, (scan [] parts).2)
      else scan (buffer ++ part) parts

namespace Broker

/-- What `send` encodes for the next request of a client. -/
def requestOf (b : Broker) (session : String) (service : Service) (value : Object) : Object :=
  Object.set [("type", .str "request"), ("id", .int (b.counter + 1)), ("service", .str service.name),
    ("payload", .obj value)] "session" (.str session)

variable (P : Python)

/-- The first of the lines is too deep to be parsed, or to be encoded again; or it is forwarded, and
the second is too deep. -/
def TooDeep (request : Object → Object) (lines : List Data) : Prop :=
  ∃ first more, lines = first :: more ∧
    (P.loads first = .error .uncaught ∨ ∃ value, P.loads first = .ok (.obj value) ∧
      (encode P (request value) = .error .uncaught ∨
        (∃ text, encode P (request value) = .ok text) ∧
          ∃ second, more.head? = some second ∧ P.loads second = .error .uncaught))

/-- The bytes, in these chunks, are too deep: the first chunk that completes a line decides. -/
def Overwhelms (request : Object → Object) : Data → List Data → Prop
  | _, [] => False
  | buffer, chunk :: chunks => chunk ≠ [] ∧
      (TooDeep P request (scan buffer (splitlines [] chunk)).1 ∨
        ∃ buffer', scan buffer (splitlines [] chunk) = ([], some buffer') ∧
          Overwhelms request buffer' chunks)

/-- The client is readable again and again, with the data that `recv` returns, as long as it is not
closed. -/
def receiveChunks (client : Nat) : List (Data × Nat) → Act Broker Unit
  | [] => return ()
  | (data, now) :: chunks => do
      let b ← get
      if (b.clients.lookup client).isSome then
        guarded client (readClient P client data now)
        receiveChunks client chunks
      else return ()

variable {P} {b : Broker} {client : Nat} {r : Record} {session : String}

/-! ### One chunk -/

theorem encode_length {value : Object} {text : Data} (h : encode P value = .ok text) :
    text.length ≤ maxFrame + 1 := by
  rw [encode] at h
  split at h
  · split at h
    · cases h
    · next hlen =>
        cases h
        rw [List.length_append, List.length_singleton]
        exact Nat.succ_le_succ (Nat.not_lt.mp hlen)
  · cases h

/-- With room in the queue, `send` raises what encoding raises. -/
theorem send_raises (b : Broker) (session : String) (hs : b.session = some session)
    (hroom : b.outgoing.length + (maxFrame + 1) ≤ maxQueue) (value : Object) (now : Nat) :
    wp (send P value now)
      (fun _ b' => ∃ text, encode P (Object.set value "session" (.str session)) = .ok text ∧
        b'.session = b.session ∧ b'.clients = b.clients)
      (fun e b' => encode P (Object.set value "session" (.str session)) = .error e ∧ b' = b) b := by
  simp only [send, wp_bind, wp_get, hs]
  refine wp_fromExcept (fun text htext => ?_) fun e he => ⟨he, rfl⟩
  refine wp_ite (fun hfull => ?_) fun _ => ⟨text, htext, rfl, rfl⟩
  have := encode_length htext
  omega

/-- So does forwarding. -/
theorem forward_raises (hr : b.clients.lookup client = some r) (hs : b.session = some session)
    (hroom : b.outgoing.length + (maxFrame + 1) ≤ maxQueue) (service : Service) (value : Object)
    (now : Nat) :
    wp (forward P client service value session now)
      (fun _ b' => (∃ text, encode P (b.requestOf session service value) = .ok text) ∧
        b'.session = b.session ∧
        ∃ r', b'.clients.lookup client = some r' ∧ r'.id.isSome ∧ r'.frames = r.frames)
      (fun e b' => encode P (b.requestOf session service value) = .error e ∧
        b'.session = b.session) b := by
  simp only [forward, wp_bind, wp_get, wp_set, wp_modify]
  refine wp_mono (send_raises _ session ?_ ?_ _ now) ?_ ?_
  · exact hs
  · exact hroom
  · rintro _ b' ⟨text, htext, hsession, hclients⟩
    refine ⟨⟨text, htext⟩, hsession, ?_⟩
    rw [hclients]
    dsimp only
    rw [lookup_withRecord, if_pos rfl, hr]
    exact ⟨_, rfl, rfl, rfl⟩
  · rintro e _ ⟨he, rfl⟩
    exact ⟨he, rfl⟩

/-- A client that has sent its request: the first line it completes is parsed and refused. -/
theorem readParts_numbered (client now : Nat) (parts : List Data)
    (hr : b.clients.lookup client = some r) (hid : r.id.isSome) :
    wp (readParts P client now parts)
      (fun _ b' => b'.session = b.session ∧ (scan r.frames parts).1 = [] ∧
        ∃ r', b'.clients.lookup client = some r' ∧ r'.id.isSome)
      (fun e b' => b'.session = b.session ∧ (e = .uncaught ↔
        ∃ line, (scan r.frames parts).1.head? = some line ∧ P.loads line = .error .uncaught)) b := by
  induction parts generalizing b r with
  | nil => exact ⟨rfl, rfl, r, hr, hid⟩
  | cons part parts ih =>
      simp only [readParts, wp_bind, wp_get]
      rw [hr]
      dsimp only
      rw [wp_bind, scan, feed]
      have hr₁ : ∀ buffer, (b.withRecord client fun r => { r with frames := buffer }).clients.lookup
          client = some { r with frames := buffer } := by
        intro buffer
        rw [lookup_withRecord, if_pos rfl, hr]
        rfl
      by_cases hlong : (r.frames ++ part).length > maxFrame + 1
      · rw [if_pos hlong, if_pos hlong]
        exact ⟨rfl, by simp⟩
      · rw [if_neg hlong, if_neg hlong]
        by_cases hlast : (r.frames ++ part).getLast? = some 10
        · rw [if_pos hlast, if_pos hlast]
          cases hloads : P.loads (r.frames ++ part) with
          | error e =>
              refine ⟨rfl, ?_⟩
              simp [hloads]
          | ok json =>
              cases json with
              | obj value =>
                  simp only [fromExcept, wp_pure, wp_bind, wp_set, hid, if_true]
                  exact ⟨rfl, by simp [hloads]⟩
              | null | bool _ | int _ | float _ | str _ | arr _ =>
                  exact ⟨rfl, by simp [hloads]⟩
        · rw [if_neg hlast, if_neg hlast]
          simp only [fromExcept, wp_pure, wp_bind, wp_set]
          exact ih (hr₁ _) hid

theorem tooDeep_cons {request : Object → Object} {first : Data} {more : List Data} {value : Object}
    (h : P.loads first = .ok (.obj value)) :
    TooDeep P request (first :: more) ↔ encode P (request value) = .error .uncaught ∨
      (∃ text, encode P (request value) = .ok text) ∧
        ∃ second, more.head? = some second ∧ P.loads second = .error .uncaught := by
  constructor
  · rintro ⟨_, _, heq, hdeep⟩
    obtain ⟨rfl, rfl⟩ := List.cons.inj heq
    rcases hdeep with hdeep | ⟨value', hvalue, hdeep⟩
    · exact nomatch h.symm.trans hdeep
    · obtain rfl : value = value' := Json.obj.inj (Except.ok.inj (h.symm.trans hvalue))
      exact hdeep
  · exact fun hdeep => ⟨first, more, rfl, .inr ⟨value, h, hdeep⟩⟩

/-- A client that has sent nothing yet, over one chunk. -/
theorem readParts_first (client now : Nat) (parts : List Data)
    (hr : b.clients.lookup client = some r) (hid : r.id = none) (hs : b.session = some session)
    (hroom : b.outgoing.length + (maxFrame + 1) ≤ maxQueue) :
    wp (readParts P client now parts)
      (fun _ b' => b'.session = b.session ∧
        ((∃ buffer, scan r.frames parts = ([], some buffer) ∧ b'.outgoing = b.outgoing ∧
          b'.counter = b.counter ∧ b'.clients.lookup client = some { r with frames := buffer }) ∨
        ¬ TooDeep P (b.requestOf session r.service) (scan r.frames parts).1 ∧
          (scan r.frames parts).1 ≠ [] ∧ ∃ r', b'.clients.lookup client = some r' ∧ r'.id.isSome))
      (fun e b' => b'.session = b.session ∧ (e = .uncaught ↔
        TooDeep P (b.requestOf session r.service) (scan r.frames parts).1) ∧
        ∀ buffer, scan r.frames parts ≠ ([], some buffer)) b := by
  -- Until a line is complete the parts are gathered; the first line numbers the client.
  induction parts generalizing b r with
  | nil => exact ⟨rfl, .inl ⟨r.frames, rfl, rfl, rfl, hr⟩⟩
  | cons part parts ih =>
      simp only [readParts, wp_bind, wp_get]
      rw [hr]
      dsimp only
      rw [wp_bind, scan, feed]
      have hr₁ : ∀ buffer, (b.withRecord client fun r => { r with frames := buffer }).clients.lookup
          client = some { r with frames := buffer } := by
        intro buffer
        rw [lookup_withRecord, if_pos rfl, hr]
        rfl
      by_cases hlong : (r.frames ++ part).length > maxFrame + 1
      · rw [if_pos hlong, if_pos hlong]
        exact ⟨rfl, by simp [TooDeep], by simp⟩
      · rw [if_neg hlong, if_neg hlong]
        by_cases hlast : (r.frames ++ part).getLast? = some 10
        · rw [if_pos hlast, if_pos hlast]
          cases hloads : P.loads (r.frames ++ part) with
          | error e => exact ⟨rfl, by simp [TooDeep, hloads], by simp⟩
          | ok json =>
              cases json with
              | obj value =>
                  simp only [fromExcept, wp_pure, wp_bind, wp_set, hid, Option.isSome_none,
                    Bool.false_eq_true, if_false]
                  split
                  · next hnone =>
                      rw [hs] at hnone
                      cases hnone
                  · next session' hsome =>
                      obtain rfl : session = session' := Option.some.inj (hs.symm.trans hsome)
                      rw [wp_bind]
                      -- The request goes out unless its text is too deep, and the parts behind it
                      -- are those of a numbered client.
                      refine wp_mono (forward_raises (hr₁ []) hs hroom r.service value now) ?_ ?_
                      · rintro _ b₁ ⟨⟨text, htext⟩, hsession, r₁, hlookup, hid₁, hframes⟩
                        refine wp_mono (readParts_numbered client now parts hlookup hid₁) ?_ ?_
                        · rintro _ b' ⟨hb', hnone, r', hr', hid'⟩
                          refine ⟨hb'.trans hsession, .inr ⟨?_, by simp, r', hr', hid'⟩⟩
                          rw [hframes] at hnone
                          rw [tooDeep_cons hloads]
                          rintro (hdeep | ⟨-, second, hsecond, -⟩)
                          · cases htext.symm.trans hdeep
                          · simp [hnone] at hsecond
                        · rintro e b' ⟨hb', he⟩
                          refine ⟨hb'.trans hsession, ?_, by simp⟩
                          rw [hframes] at he
                          rw [he, tooDeep_cons hloads]
                          refine ⟨fun hline => .inr ⟨⟨text, htext⟩, hline⟩, ?_⟩
                          rintro (hdeep | ⟨-, hline⟩)
                          · cases htext.symm.trans hdeep
                          · exact hline
                      · rintro e b' ⟨he, hb'⟩
                        refine ⟨hb', ?_, by simp⟩
                        rw [tooDeep_cons hloads]
                        constructor
                        · rintro rfl
                          exact .inl he
                        · rintro (hdeep | ⟨⟨text, htext⟩, -⟩)
                          · exact Except.error.inj (he.symm.trans hdeep)
                          · cases htext.symm.trans he
              | null | bool _ | int _ | float _ | str _ | arr _ =>
                  exact ⟨rfl, by simp [TooDeep, hloads], by simp⟩
        · rw [if_neg hlast, if_neg hlast]
          simp only [fromExcept, wp_pure, wp_bind, wp_set]
          exact ih (hr₁ _) hid hs hroom

/-! ### All chunks -/

theorem session_closeClient (b : Broker) (client : Nat) :
    (b.closeClient client).session = b.session := by
  rw [closeClient]
  split <;> rfl

/-- A client that is closed is not read. -/
theorem receiveChunks_gone (chunks : List (Data × Nat)) (h : b.clients.lookup client = none) :
    wp (receiveChunks P client chunks) (fun _ b' => b' = b) (fun _ _ => False) b := by
  cases chunks with
  | nil => rfl
  | cons chunk chunks =>
      simp only [receiveChunks, wp_bind, wp_get, h, Option.isSome_none, Bool.false_eq_true, if_false,
        wp_pure]

theorem receiveChunks_closed (chunks : List (Data × Nat)) :
    wp (receiveChunks P client chunks) (fun _ b' => b'.session = b.session) (fun _ _ => False)
      (b.closeClient client) := by
  have hgone : (b.closeClient client).clients.lookup client = none := by
    rw [lookup_closeClient, if_pos rfl]
  refine wp_mono (receiveChunks_gone chunks hgone) ?_ fun _ _ => id
  rintro _ _ rfl
  exact session_closeClient b client

/-- A client that has sent its request is closed when it sends more. -/
theorem receiveChunks_numbered (chunks : List (Data × Nat)) (hr : b.clients.lookup client = some r)
    (hid : r.id.isSome) :
    wp (receiveChunks P client chunks) (fun _ b' => b'.session = b.session) (fun _ _ => False) b := by
  cases chunks with
  | nil => exact rfl
  | cons chunk chunks =>
      simp only [receiveChunks, guarded, readClient, wp_bind, wp_get, wp_tryCatch, hr,
        Option.isSome_some, if_true, hid]
      refine wp_ite (fun _ => ?_) fun _ => ?_
      · exact receiveChunks_closed chunks
      · exact receiveChunks_closed chunks

/-- **The handler of a client**, over any chunks: it ends the broker when the client's bytes are too
deep, and otherwise leaves the session alone. -/
theorem receiveChunks_spec (client : Nat) (chunks : List (Data × Nat))
    (hr : b.clients.lookup client = some r) (hs : b.session = some session)
    (hroom : b.outgoing.length + (maxFrame + 1) ≤ maxQueue) :
    wp (receiveChunks P client chunks)
      (fun _ b' => b'.session = b.session ∧ ¬ (r.id = none ∧
        Overwhelms P (b.requestOf session r.service) r.frames (chunks.map Prod.fst)))
      (fun _ _ => r.id = none ∧
        Overwhelms P (b.requestOf session r.service) r.frames (chunks.map Prod.fst)) b := by
  induction chunks generalizing b r with
  | nil => exact ⟨rfl, fun h => h.2⟩
  | cons chunk chunks ih =>
      -- A client that has sent its request is closed when it sends more.
      cases hid : r.id with
      | some id =>
          refine wp_mono (receiveChunks_numbered (chunk :: chunks) hr (by simp [hid])) ?_
            fun _ _ => False.elim
          intro _ b' hb'
          exact ⟨hb', fun h => Option.some_ne_none id h.1⟩
      | none =>
          obtain ⟨data, now⟩ := chunk
          simp only [receiveChunks, guarded, readClient, wp_bind, wp_get, wp_tryCatch, hr,
            Option.isSome_some, if_true, hid, Option.isSome_none, Bool.false_eq_true, if_false,
            List.map_cons]
          refine wp_ite (fun hempty => ?_) fun hdata => ?_
          · rw [wp_set]
            refine wp_mono (receiveChunks_closed chunks) ?_ fun _ _ => False.elim
            intro _ b' hb'
            exact ⟨hb', fun h => h.2.1 (List.isEmpty_iff.mp hempty)⟩
          · have hne : data ≠ [] := fun h => hdata (List.isEmpty_iff.mpr h)
            refine wp_mono (readParts_first client now _ hr hid hs hroom) ?_ ?_
            · rintro _ b₁ ⟨hsession, ⟨buffer, hscan, hout, hcounter, hlookup⟩ |
                ⟨hdeep, hlines, r', hr', hid'⟩⟩
              · -- No line ended: the next chunk goes on with the buffer.
                have hrequest : b₁.requestOf session r.service = b.requestOf session r.service := by
                  funext value
                  rw [requestOf, requestOf, hcounter]
                have hspec := ih hlookup (hsession.trans hs) (by rw [hout]; exact hroom)
                have hiff : Overwhelms P (b.requestOf session r.service) r.frames
                    (data :: chunks.map Prod.fst) ↔
                    Overwhelms P (b.requestOf session r.service) buffer
                      (chunks.map Prod.fst) := by
                  rw [Overwhelms, hscan]
                  simp [TooDeep, hne]
                rw [hiff]
                refine wp_mono hspec ?_ ?_
                · rintro _ b' ⟨hb', hno⟩
                  rw [hrequest] at hno
                  exact ⟨hb'.trans hsession, fun h => hno ⟨hid, h.2⟩⟩
                · rintro _ b' ⟨-, hover⟩
                  rw [hrequest] at hover
                  exact ⟨trivial, hover⟩
              · refine wp_mono (receiveChunks_numbered chunks hr' hid') ?_ fun _ _ => False.elim
                intro _ b' hb'
                refine ⟨hb'.trans hsession, ?_⟩
                rintro ⟨-, -, hover | ⟨buffer, hscan, -⟩⟩
                · exact hdeep hover
                · exact hlines (by rw [hscan])
            · rintro e b₁ ⟨hsession, he, hscan⟩
              cases e with
              | caught =>
                  rw [wp_modify]
                  -- The exception is caught, and the client is closed.
                  refine wp_mono (receiveChunks_closed chunks) ?_ fun _ _ => False.elim
                  intro _ b' hb'
                  refine ⟨hb'.trans hsession, ?_⟩
                  rintro ⟨-, -, hover | ⟨buffer, hbuffer, -⟩⟩
                  · cases he.mpr hover
                  · exact hscan buffer hbuffer
              | uncaught => exact ⟨trivial, hne, .inl (he.mp rfl)⟩

/-- The client's record, if it is still there, can be read; and if it has sent nothing yet, a frame
of it has room. -/
def Ready (b : Broker) (client : Nat) : Prop :=
  ∀ r, b.clients.lookup client = some r →
    r.Readable ∧ (r.id = none → b.outgoing.length + (maxFrame + 1) ≤ maxQueue)

theorem Ready.closed (b : Broker) (client : Nat) : (b.closeClient client).Ready client := by
  intro r hr
  rw [lookup_closeClient, if_pos rfl] at hr
  cases hr

theorem Ready.of_numbered {r' : Record} (hr' : b.clients.lookup client = some r')
    (hid : r'.id.isSome) : b.Ready client := by
  intro r hr
  obtain rfl : r' = r := Option.some.inj (hr'.symm.trans hr)
  exact ⟨.inr hid, fun hnone => by simp [hnone] at hid⟩

/-- The handler leaves a client that can be read again. -/
theorem guarded_ready (data : Data) (now : Nat) (hr : b.clients.lookup client = some r)
    (hs : b.session = some session) (hready : b.Ready client) :
    wp (guarded client (readClient P client data now))
      (fun _ b' => b'.session = some session ∧ b'.Ready client) (fun _ _ => True) b := by
  simp only [guarded, readClient, wp_bind, wp_get, wp_tryCatch, hr]
  refine wp_ite (fun _ => ?_) fun _ => wp_ite (fun _ => ?_) fun hid => ?_
  · exact ⟨(session_closeClient b client).trans hs, .closed b client⟩
  · exact ⟨(session_closeClient b client).trans hs, .closed b client⟩
  · have hnone : r.id = none := by simpa using hid
    obtain ⟨hreadable, hroom⟩ := hready r hr
    refine wp_mono (readParts_first client now _ hr hnone hs (hroom hnone)) ?_ ?_
    · rintro _ b' ⟨hsession, ⟨buffer, -, hout, -, hlookup⟩ | ⟨-, -, r', hr', hid'⟩⟩
      · refine ⟨hsession.trans hs, ?_⟩
        intro r' hr'
        obtain rfl := Option.some.inj (hlookup.symm.trans hr')
        exact ⟨hreadable, fun _ => hout ▸ hroom hnone⟩
      · exact ⟨hsession.trans hs, .of_numbered hr' hid'⟩
    · rintro e b' ⟨hsession, -, -⟩
      cases e with
      | caught => exact ⟨(session_closeClient b' client).trans (hsession.trans hs), .closed b' client⟩
      | uncaught => exact trivial

/-- Reading a client keeps the books and the other clients. -/
theorem receiveChunks_books (chunks : List (Data × Nat)) (h : b.Books)
    (hs : b.session = some session) (hready : b.Ready client) :
    wp (receiveChunks P client chunks)
      (fun _ b' => b'.Books ∧ ReadBy P client b b') (fun _ _ => True) b := by
  induction chunks generalizing b with
  | nil => exact ⟨h, .refl b⟩
  | cons chunk chunks ih =>
      obtain ⟨data, now⟩ := chunk
      simp only [receiveChunks, wp_bind, wp_get]
      refine wp_ite (fun hsome => ?_) fun _ => ⟨h, .refl b⟩
      obtain ⟨r, hr⟩ := Option.isSome_iff_exists.mp hsome
      rw [wp_bind]
      have hboth := wp_and (guarded_books (P := P) client data now h fun r hr => (hready r hr).1)
        (guarded_ready data now hr hs hready)
      refine wp_mono hboth ?_ fun _ _ _ => trivial
      rintro _ b₁ ⟨⟨hbooks, hread⟩, hs₁, hready₁⟩
      refine wp_mono (ih hbooks hs₁ hready₁) ?_ fun _ _ _ => trivial
      rintro _ b' ⟨hb', hread'⟩
      exact ⟨hb', hread.trans hread'⟩

/-- An id is pending for another client as before. -/
theorem ReadBy.pending {b' : Broker} (hread : ReadBy P client b b') (h : b.Books) (h' : b'.Books)
    (id : Int) {other : Nat} (hne : other ≠ client) :
    b'.pending.lookup id = some other ↔ b.pending.lookup id = some other := by
  rw [h'.pending, h.pending, Waits, Waits, hread.others other hne]

/-- The client's bytes do not raise out of `step`, and leave the session, the other clients and what is
pending for them as they are. -/
def Isolated (P : Python) (b : Broker) (client : Nat) (chunks : List (Data × Nat)) : Prop :=
  ∃ b', (receiveChunks P client chunks).run b = .ok () b' ∧ b'.session = b.session ∧
    ∀ other, other ≠ client →
      b'.clients.lookup other = b.clients.lookup other ∧
      ∀ id, b'.pending.lookup id = some other ↔ b.pending.lookup id = some other

end Broker

/-- **One client cannot end the session**, in any state of a run and in any chunks, unless its first
line, the request made of it, or the line after it in the same chunk is nested too deeply: then, and
only then, the handler raises to the end of the broker. -/
theorem client_isolated_iff (P : Python) (token : String) {now : Nat} {b : Broker}
    (hb : (System.initial.broker.start P token now).run System.initial.broker = .ok () b)
    {t : List (Call × Unit)} {d : Desk} (h : Steps (Desk.Step P token) (.opened b) t d)
    {session : String} (hs : d.broker.session = some session) {client : Nat} {r : Record}
    (hr : d.broker.clients.lookup client = some r) (hread : r.interest = .read)
    (hroom : d.broker.outgoing.length + (maxFrame + 1) ≤ maxQueue) (chunks : List (Data × Nat)) :
    d.broker.Isolated P client chunks ↔ (r.id = none →
      ¬ Broker.Overwhelms P (d.broker.requestOf session r.service) r.frames
        (chunks.map Prod.fst)) := by
  have hinv : d.Inv P := h.invariant (I := Desk.Inv P) (fun h hs => h.step hs) (.opened hb)
  have hspec := Broker.receiveChunks_spec (P := P) client chunks hr hs hroom
  have hready : d.broker.Ready client := by
    intro r' hr'
    obtain rfl : r = r' := Option.some.inj (hr.symm.trans hr')
    exact ⟨.of_interest hread, fun _ => hroom⟩
  have hbooks := Broker.receiveChunks_books (P := P) chunks hinv.books hs hready
  constructor
  · rintro ⟨b', hrun, -⟩ hid hover
    exact (hspec.ok hrun).2 ⟨hid, hover⟩
  · intro hno
    cases hrun : (Broker.receiveChunks P client chunks).run d.broker with
    | error e b' =>
        obtain ⟨hid, hover⟩ := hspec.error hrun
        exact absurd hover (hno hid)
    | ok _ b' =>
        obtain ⟨hb', hreadBy⟩ := hbooks.ok hrun
        refine ⟨b', hrun, (hspec.ok hrun).1, ?_⟩
        intro other hne
        exact ⟨hreadBy.others other hne, fun id => hreadBy.pending hinv.books hb' id hne⟩

/-- Texts that are never nested too deeply. -/
theorem Broker.not_overwhelms {P : Python} (hloads : ∀ l, P.loads l ≠ .error .uncaught)
    (hdumps : ∀ j, P.dumps true j ≠ .error .uncaught) (request : Object → Object) (buffer : Data)
    (chunks : List Data) : ¬ Overwhelms P request buffer chunks := by
  induction chunks generalizing buffer with
  | nil => exact id
  | cons chunk chunks ih =>
      rintro ⟨-, ⟨first, _, -, hdeep⟩ | ⟨buffer', -, hover⟩⟩
      · rcases hdeep with hfirst | ⟨value, -, hencode | ⟨-, second, -, hsecond⟩⟩
        · exact hloads _ hfirst
        · rw [encode] at hencode
          split at hencode
          · split at hencode <;> cases hencode
          · next e he =>
              obtain rfl := Except.error.inj hencode
              exact hdumps _ he
        · exact hloads _ hsecond
      · exact ih buffer' hover

/-- A line that is not broken before its end. -/
theorem splitlines_line {l : Data} (h : ∀ c ∈ l, c ≠ 10 ∧ c ≠ 13) (line : Data) :
    splitlines line (l ++ [10]) = [line ++ l ++ [10]] := by
  induction l generalizing line with
  | nil => simp [splitlines]
  | cons c l ih =>
      obtain ⟨h10, h13⟩ := h c List.mem_cons_self
      rw [List.cons_append, splitlines, if_neg (by simp [h10, h13]),
        ih fun c hc => h c (List.mem_cons_of_mem _ hc)]
      simp

namespace Sample

/-- The host has answered the hello, and two clients have connected. -/
def joined : List Call :=
  [.readPort ((guestTexts.table.map Prod.snd).headI ++ [10]) 0, .accept .host 0 0,
    .accept .wifi 0 0, .writePort 40]

/-- `json`, with its limit on nested arrays. -/
def nesting : Python :=
  { setting.python with
    loads := fun l => if List.replicate 1000 91 <+: l then .error .uncaught else loads guestTexts l }

theorem nesting_loads {l : Data} (h : List.replicate 1000 91 <+: l) :
    nesting.loads l = .error .uncaught := if_pos h

/-- As many opening brackets as a line can hold. -/
def brackets : Data := List.replicate 32768 91 ++ [10]

/-- The desk is open, and the clients have connected. -/
def desk (P : Python) : Option Desk :=
  match (System.initial.broker.start P token 0).run System.initial.broker with
  | .ok _ b => (Desk.opened b).run P token joined
  | .error _ _ => none

theorem desk_steps {P : Python} {d : Desk} (h : desk P = some d) :
    ∃ b t, (System.initial.broker.start P token 0).run System.initial.broker = .ok () b ∧
      Steps (Desk.Step P token) (.opened b) t d := by
  rw [desk] at h
  cases hb : (System.initial.broker.start P token 0).run System.initial.broker with
  | ok _ b =>
      rw [hb] at h
      exact ⟨b, _, rfl, Desk.steps_of_run h⟩
  | error _ _ =>
      rw [hb] at h
      cases h

/-- The first of the clients can be read. -/
def Waiting (d : Desk) : Prop :=
  d.broker.session = some session ∧ d.broker.outgoing.length + (maxFrame + 1) ≤ maxQueue ∧
    (d.broker.clients.lookup 0).map (fun r => (r.interest, r.id, r.frames)) = some (.read, none, [])

instance (d : Desk) : Decidable (Waiting d) := inferInstanceAs (Decidable (_ ∧ _ ∧ _))

theorem waiting_setting : (desk setting.python).any (fun d => Waiting d) = true := by
  decide +kernel

theorem waiting_nesting : (desk nesting).any (fun d => Waiting d) = true := by
  decide +kernel

theorem Waiting.record {d : Desk} (h : Waiting d) :
    ∃ r, d.broker.clients.lookup 0 = some r ∧ r.interest = .read ∧ r.id = none ∧ r.frames = [] := by
  obtain ⟨r, hr, heq⟩ := Option.map_eq_some_iff.mp h.2.2
  obtain ⟨hread, hrest⟩ := Prod.mk.inj heq
  obtain ⟨hid, hframes⟩ := Prod.mk.inj hrest
  exact ⟨r, hr, hread, hid, hframes⟩

theorem loads_shallow (l : Data) : setting.python.loads l ≠ .error .uncaught := by
  change loads guestTexts l ≠ _
  rw [loads]
  split <;> simp

theorem dumps_shallow (j : Json) : setting.python.dumps true j ≠ .error .uncaught := by
  change dumps hostTexts true j ≠ _
  rw [dumps.eq_def]
  split
  · split <;> simp
  · simp

theorem length_brackets : brackets.length = maxFrame + 1 := by
  rw [brackets, List.length_append, List.length_replicate]
  rfl

/-- The brackets are one line, which `json` raises on. -/
theorem brackets_overwhelm (request : Object → Object) :
    Broker.Overwhelms nesting request [] [brackets] := by
  have hsplit : splitlines [] brackets = [brackets] := by
    refine splitlines_line (fun c hc => ?_) []
    rw [List.eq_of_mem_replicate hc]
    decide
  have hscan : scan [] [brackets] = ([brackets], some []) := by
    rw [scan, List.nil_append, if_neg (Nat.lt_irrefl _ <| length_brackets ▸ ·),
      if_pos (by rw [brackets, List.getLast?_concat])]
    rfl
  have hdeep : nesting.loads brackets = .error .uncaught := by
    refine nesting_loads ⟨List.replicate 31768 91 ++ [10], ?_⟩
    rw [brackets, ← List.append_assoc, List.replicate_append_replicate]
  refine ⟨?_, .inl ⟨brackets, [], ?_, .inl hdeep⟩⟩
  · intro hnil
    have := length_brackets
    rw [hnil] at this
    cases this
  · rw [hsplit, hscan]

end Sample

theorem client_isolated_status :
    ∃ (d : Desk) (r : Record), Sample.desk Sample.setting.python = some d ∧
      d.broker.session = some Sample.session ∧ d.broker.clients.lookup 0 = some r ∧ r.id = none ∧
      d.broker.Isolated Sample.setting.python 0 [(Sample.statusText, 1), ([10], 2), ([91], 3)] := by
  obtain ⟨d, hd, hwaiting⟩ := (Option.any_eq_true ..).mp Sample.waiting_setting
  obtain ⟨b, t, hb, hrun⟩ := Sample.desk_steps hd
  have hwaiting : Sample.Waiting d := of_decide_eq_true hwaiting
  obtain ⟨r, hr, hread, hid, -⟩ := hwaiting.record
  refine ⟨d, r, hd, hwaiting.1, hr, hid, ?_⟩
  refine (client_isolated_iff _ _ hb hrun hwaiting.1 hr hread hwaiting.2.1 _).mpr fun _ => ?_
  exact Broker.not_overwhelms Sample.loads_shallow Sample.dumps_shallow _ _ _

/-- **Brackets end the broker.** -/
theorem client_not_isolated :
    ¬ ∀ (P : Python) (token : String) (now : Nat) (b : Broker),
      (System.initial.broker.start P token now).run System.initial.broker = .ok () b →
      ∀ (t : List (Call × Unit)) (d : Desk), Steps (Desk.Step P token) (.opened b) t d →
      ∀ session, d.broker.session = some session →
      ∀ (client : Nat) (r : Record), d.broker.clients.lookup client = some r →
      r.interest = .read → d.broker.outgoing.length + (maxFrame + 1) ≤ maxQueue →
      ∀ chunks : List (Data × Nat), d.broker.Isolated P client chunks := by
  intro hall
  obtain ⟨d, hd, hwaiting⟩ := (Option.any_eq_true ..).mp Sample.waiting_nesting
  obtain ⟨b, t, hb, hrun⟩ := Sample.desk_steps hd
  have hwaiting : Sample.Waiting d := of_decide_eq_true hwaiting
  obtain ⟨r, hr, hread, hid, hframes⟩ := hwaiting.record
  obtain ⟨b', hok, -⟩ := hall Sample.nesting Sample.token 0 b hb t d hrun _ hwaiting.1 0 r hr hread
    hwaiting.2.1 [(Sample.brackets, 1)]
  have hspec := Broker.receiveChunks_spec (P := Sample.nesting) 0 [(Sample.brackets, 1)] hr
    hwaiting.1 hwaiting.2.1
  refine (hspec.ok hok).2 ⟨hid, ?_⟩
  rw [hframes]
  exact Sample.brackets_overwhelm _

end Ashacky.Control
