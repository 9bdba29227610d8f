import Ashacky.Control.Workers
import Ashacky.Control.Correlation
import Ashacky.Control.Framing

/-!
# Control — failure of the channel

`fail()` closes the channel and tells the frontend, which resets the link.  `receive` returns after
the failures it sees itself: a line that is too long, one that is no object of version 1, and one
that `handle` refuses.  A welcome or a refusal that cannot be queued fails inside `handle`, which
returns true all the same.

* `answer`: the frame that handling an object queues.
* `Byte`: what one byte does, with the two ways it can fail.
* `failure_final_iff`: a failure ends the chunk, and happens once, exactly when every frame that is
  queued before the last byte of the chunk fits.
* `failure_not_final`: after such a failure the rest of the chunk opens a session.
-/

namespace Ashacky.Control
open Ashacky.Support

namespace ControlChannel

/-- The frame that `handle` queues, if it queues one. -/
def answer (F : Foundation) (token : String) (value : Object) (c : ControlChannel) :
    Option HostFrame :=
  match c.session with
  | none =>
      match Object.text value "nonce" with
      | some nonce =>
          if Object.text value "type" = some "hello" ∧ Object.text value "token" = some token ∧
              F.isUUID nonce then some (.welcome nonce (F.uuidString c.drawn) token)
          else none
      | none => none
  | some session =>
      if Object.text value "session" = some session ∧ Object.text value "type" = some "request" then
        match (value.lookup "id").bind integer, (Object.text value "service").bind serviceOf,
          Object.object value "payload" with
        | some id, some _, some payload =>
            if id > c.lastRequest then
              if Object.text payload "action" = some "vm-stopped" then
                some (.response session id supervisorRequired none)
              else if c.outstanding < 16 then none
              else some (.response session id busy none)
            else none
        | _, _, _ => none
      else none

/-- The line that ends now gets an answer that cannot be queued. -/
def Overflows (F : Foundation) (token : String) (c : ControlChannel) : Prop :=
  ∃ f, (objectOf F c.buffer).bind (answer F token · c) = some f ∧ ¬ c.Fits F f

variable {F : Foundation} {token : String} {c c' : ControlChannel}

/-- A frame that does not fit fails the channel. -/
theorem enqueue_of_not_fits {f : HostFrame} (h : ¬ c.Fits F f) : c.enqueue F f = c.fail := by
  rw [enqueue]
  cases hdata : F.data f.entries with
  | none => rfl
  | some bytes =>
      dsimp only
      by_cases hlen : bytes.length ≤ maximumFrame
      · rw [if_pos hlen, if_neg fun hroom => h ⟨bytes, hdata, hlen, hroom⟩]
      · rw [if_neg hlen]

/-- The second channel has the same queue. -/
structure SameQueue (c c' : ControlChannel) : Prop where
  generation : c'.generation = c.generation
  queue : c'.queue = c.queue
  queuedBytes : c'.queuedBytes = c.queuedBytes
  writing : c'.writing = c.writing
  writes : c'.writes = c.writes

theorem SameQueue.refl (c : ControlChannel) : SameQueue c c := ⟨rfl, rfl, rfl, rfl, rfl⟩

/-- What `handle` comes to: it refuses; it queues nothing; or it queues the answer. -/
inductive Handled (F : Foundation) (token : String) (value : Object) (c : ControlChannel) : Prop
  | refused (ha : c.answer F token value = none) (hh : c.handle F token value = none)
  | silent (c' : ControlChannel) (ha : c.answer F token value = none)
      (hh : c.handle F token value = some c') (hq : SameQueue c c')
  | answered (f : HostFrame) (c₁ : ControlChannel) (ha : c.answer F token value = some f)
      (hh : c.handle F token value = some (c₁.enqueue F f)) (hq : SameQueue c c₁)

/-- A refusal is queued as a response. -/
theorem refuse_eq {session : String} (hs : c.session = some session) (id : Int)
    (payload : Object) : ∃ c₁, c.refuse F session id payload =
      enqueue F (.response session id payload none) c₁ ∧ SameQueue c c₁ := by
  refine ⟨{ c with history := { c.history with
    refusals := c.history.refusals ++ [⟨session, id, payload⟩] } }, ?_, rfl, rfl, rfl, rfl, rfl⟩
  simp only [refuse, reply, hs]

/-- A request of the session, with its fields. -/
theorem handled_request {value payload : Object} {session : String} {id : Int} {service : Service}
    (hs : c.session = some session)
    (hv : Object.text value "session" = some session ∧ Object.text value "type" = some "request")
    (hid : (value.lookup "id").bind integer = some id)
    (hserv : (Object.text value "service").bind serviceOf = some service)
    (hp : Object.object value "payload" = some payload) : Handled F token value c := by
  by_cases hlast : id > c.lastRequest
  · have hh : c.handle F token value = some (c.handleRequest F session id service payload) := by
      simp only [handle, hs, if_pos hv, hid, hserv, hp, if_pos hlast]
    by_cases hstop : Object.text payload "action" = some "vm-stopped"
    · obtain ⟨c₁, h₁, hg, hqueue, hbytes, hwriting, hwrites⟩ :=
        refuse_eq (c := { c with lastRequest := id }) (F := F) hs id supervisorRequired
      refine .answered (.response session id supervisorRequired none) c₁ ?_ (hh.trans ?_)
        ⟨hg, hqueue, hbytes, hwriting, hwrites⟩
      · simp only [answer, hs, if_pos hv, hid, hserv, hp, if_pos hlast, if_pos hstop]
      · rw [handleRequest, if_pos hstop, h₁]
    · by_cases hbusy : c.outstanding < 16
      · refine .silent _ ?_ hh ?_
        · simp only [answer, hs, if_pos hv, hid, hserv, hp, if_pos hlast, if_neg hstop,
            if_pos hbusy]
        · rw [handleRequest, if_neg hstop, if_pos hbusy]
          exact ⟨rfl, rfl, rfl, rfl, rfl⟩
      · obtain ⟨c₁, h₁, hg, hqueue, hbytes, hwriting, hwrites⟩ :=
          refuse_eq (c := { c with lastRequest := id }) (F := F) hs id busy
        refine .answered (.response session id busy none) c₁ ?_ (hh.trans ?_)
          ⟨hg, hqueue, hbytes, hwriting, hwrites⟩
        · simp only [answer, hs, if_pos hv, hid, hserv, hp, if_pos hlast, if_neg hstop,
            if_neg hbusy]
        · rw [handleRequest, if_neg hstop, if_neg hbusy, h₁]
  · exact .refused (by simp only [answer, hs, if_pos hv, hid, hserv, hp, if_neg hlast])
      (by simp only [handle, hs, if_pos hv, hid, hserv, hp, if_neg hlast])

/-- Every frame is handled in one of the listed ways. -/
theorem handled (F : Foundation) (token : String) (value : Object) (c : ControlChannel) :
    Handled F token value c := by
  cases hs : c.session with
  | none =>
      cases hn : Object.text value "nonce" with
      | none => exact .refused (by simp only [answer, hs, hn]) (by simp only [handle, hs, hn])
      | some nonce =>
          by_cases hv : Object.text value "type" = some "hello" ∧
              Object.text value "token" = some token ∧ F.isUUID nonce
          · refine .answered (.welcome nonce (F.uuidString c.drawn) token) { c with
                session := some (F.uuidString c.drawn)
                drawn := c.drawn + 1
                history := { c.history with opened :=
                  c.history.opened ++ [⟨F.uuidString c.drawn, c.generation, nonce⟩] } }
              ?_ ?_ ⟨rfl, rfl, rfl, rfl, rfl⟩
            · simp only [answer, hs, hn, if_pos hv]
            · simp only [handle, hs, hn, if_pos hv]
              rfl
          · exact .refused (by simp only [answer, hs, hn, if_neg hv])
              (by simp only [handle, hs, hn, if_neg hv])
  | some session =>
      by_cases hv : Object.text value "session" = some session ∧
          Object.text value "type" = some "request"
      · cases hid : (value.lookup "id").bind integer with
        | none =>
            exact .refused (by simp only [answer, hs, if_pos hv, hid])
              (by simp only [handle, hs, if_pos hv, hid])
        | some id =>
            cases hserv : (Object.text value "service").bind serviceOf with
            | none =>
                exact .refused (by simp only [answer, hs, if_pos hv, hid, hserv])
                  (by simp only [handle, hs, if_pos hv, hid, hserv])
            | some service =>
                cases hp : Object.object value "payload" with
                | none =>
                    exact .refused (by simp only [answer, hs, if_pos hv, hid, hserv, hp])
                      (by simp only [handle, hs, if_pos hv, hid, hserv, hp])
                | some payload => exact handled_request hs hv hid hserv hp
      · exact .refused (by simp only [answer, hs, if_neg hv])
          (by simp only [handle, hs, if_neg hv])

/-- What one byte does: the channel goes on in its generation; it failed inside `handle`, and
`receive` goes on; or `receive` fails and returns. -/
inductive Byte (F : Foundation) (token : String) (byte : UInt8) (c : ControlChannel) : Prop
  | goesOn (out : List Taken) (c' : ControlChannel)
      (h : receiveByte F token byte c = (out, .ok c')) (hg : c'.generation = c.generation)
      (hfits : byte = 10 → ¬ Overflows F token c)
  | failsInside (out : List Taken) (c₁ : ControlChannel)
      (h : receiveByte F token byte c = (out, .ok c₁.fail)) (hg : c₁.generation = c.generation)
      (hbyte : byte = 10) (hover : Overflows F token c)
  | returns (out : List Taken) (r : Rejection) (c₁ : ControlChannel)
      (h : receiveByte F token byte c = (out, .error (r, c₁.fail)))
      (hg : c₁.generation = c.generation)
      (hfits : byte = 10 → ¬ Overflows F token c)

/-- Every byte is received in one of the listed ways. -/
theorem byte_cases (F : Foundation) (token : String) (byte : UInt8) (c : ControlChannel) :
    Byte F token byte c := by
  by_cases hb : byte = 10
  · have hbyte : receiveByte F token byte c = takeLine F token c.buffer { c with buffer := [] } := by
      rw [receiveByte, if_pos hb]
    have hline : receiveLine F token c.buffer { c with buffer := [] } = _ := receiveLine_eq _ _
    cases ho : objectOf F c.buffer with
    | none =>
        rw [ho] at hline
        refine .returns [⟨c.buffer, none⟩] .refused { c with buffer := [] } ?_ rfl ?_
        · rw [hbyte, takeLine, hline, ho]
          rfl
        · rintro - ⟨f, hf, -⟩
          rw [ho] at hf
          cases hf
    | some value =>
        rw [ho, Option.bind_some] at hline
        -- The buffer matters neither to the answer nor to the room in the queue.
        have hanswer : ∀ f, (objectOf F c.buffer).bind (answer F token · c) = some f ↔
            ({ c with buffer := [] } : ControlChannel).answer F token value = some f := by
          intro f
          rw [ho]
          rfl
        rcases handled F token value { c with buffer := [] } with
          ⟨ha, hh⟩ | ⟨c', ha, hh, hq⟩ | ⟨f, c₁, ha, hh, hq⟩
        · refine .returns [⟨c.buffer, some value⟩] .refused { c with buffer := [] } ?_ rfl ?_
          · rw [hbyte, takeLine, hline, hh, ho]
          · rintro - ⟨f, hf, -⟩
            rw [hanswer, ha] at hf
            cases hf
        · refine .goesOn [⟨c.buffer, some value⟩] c' ?_ hq.generation ?_
          · rw [hbyte, takeLine, hline, hh, ho]
          · rintro - ⟨f, hf, -⟩
            rw [hanswer, ha] at hf
            cases hf
        · by_cases hfits : c₁.Fits F f
          · refine .goesOn [⟨c.buffer, some value⟩] (c₁.enqueue F f) ?_ ?_ ?_
            · rw [hbyte, takeLine, hline, hh, ho]
            · rw [(generation_enqueue F f c₁).mpr hfits, hq.generation]
            · rintro - ⟨f', hf', hno⟩
              rw [hanswer, ha] at hf'
              cases hf'
              obtain ⟨bytes, hdata, hlen, hroom⟩ := hfits
              rw [hq.queuedBytes] at hroom
              exact hno ⟨bytes, hdata, hlen, hroom⟩
          · refine .failsInside [⟨c.buffer, some value⟩] c₁ ?_ hq.generation hb ⟨f, (hanswer f).mpr ha, ?_⟩
            · rw [hbyte, takeLine, hline, hh, ho, enqueue_of_not_fits hfits]
            · rintro ⟨bytes, hdata, hlen, hroom⟩
              exact hfits ⟨bytes, hdata, hlen, by rw [hq.queuedBytes]; exact hroom⟩
  · by_cases hlen : c.buffer.length < maximumFrame
    · refine .goesOn [] { c with buffer := c.buffer ++ [byte] } ?_ rfl fun h => absurd h hb
      rw [receiveByte, if_neg hb, if_pos hlen]
    · refine .returns [] .oversize c ?_ rfl fun h => absurd h hb
      rw [receiveByte, if_neg hb, if_neg hlen]

/-! ### A chunk -/

/-- A failure is final for the chunk: once the channel failed, no later byte changes it, and it has
failed once. -/
def FinalFailure (F : Foundation) (token : String) (c : ControlChannel) (data : Data) : Prop :=
  ∀ pre rest, data = pre ++ rest → (c.receive F token pre).generation ≠ c.generation →
    c.receive F token data = c.receive F token pre ∧
      ∃ c₁ : ControlChannel, c₁.generation = c.generation ∧ c.receive F token data = c₁.fail

/-- Each line that ends before the last byte of the chunk, while the channel has not failed, gets no
answer or one that can be queued. -/
def Answerable (F : Foundation) (token : String) (c : ControlChannel) (data : Data) : Prop :=
  ∀ pre rest, data = pre ++ 10 :: rest → rest ≠ [] →
    (c.receive F token pre).generation = c.generation → ¬ Overflows F token (c.receive F token pre)

/-- The bytes behind one that is taken are received from the state after it. -/
theorem receive_of_ok {byte : UInt8} {out : List Taken}
    (h : receiveByte F token byte c = (out, .ok c')) (data : Data) :
    c.receive F token (byte :: data) = c'.receive F token data := by
  rw [receive_eq, receive_eq, many_cons, h, Reading.ok_andThen]
  rfl

/-- A byte that is rejected ends the chunk. -/
theorem receive_of_error {byte : UInt8} {out : List Taken} {r : Rejection}
    (h : receiveByte F token byte c = (out, .error (r, c'))) (data : Data) :
    c.receive F token (byte :: data) = c' := by
  rw [receive_eq, many_cons, h, Reading.error_andThen]
  rfl

/-- A failure starts another generation. -/
theorem fail_generation (c : ControlChannel) : c.fail.generation ≠ c.generation :=
  Nat.succ_ne_self _

@[simp] theorem drawn_enqueue (f : HostFrame) : (c.enqueue F f).drawn = c.drawn := by
  have hdrain : ∀ d : ControlChannel, d.drain.drawn = d.drawn := by
    intro d
    rw [drain]
    split <;> rfl
  rw [enqueue]
  split
  · split
    · split
      · exact hdrain _
      · rfl
    · rfl
  · rfl

/-- Generations go up. -/
theorem generation_le_receive (F : Foundation) (token : String) (byte : UInt8)
    (c : ControlChannel) : c.generation ≤ (c.receive F token [byte]).generation := by
  rcases byte_cases F token byte c with ⟨out, c', h, hg, -⟩ | ⟨out, c₁, h, hg, -, -⟩ |
    ⟨out, r, c₁, h, hg, -⟩
  · rw [receive_of_ok h]
    exact hg.ge
  · rw [receive_of_ok h]
    exact hg ▸ Nat.le_succ _
  · rw [receive_of_error h]
    exact hg ▸ Nat.le_succ _

/-- After a failure any byte changes the channel: it is buffered, fails again or opens a session. -/
theorem receive_fail_ne (byte : UInt8) (c : ControlChannel) :
    c.fail.receive F token [byte] ≠ c.fail := by
  have hclosed : ({ c.fail with buffer := [] } : ControlChannel) = c.fail := rfl
  intro h
  rw [receive] at h
  by_cases hb : byte = 10
  · rw [if_pos hb] at h
    split at h
    · next c' hline =>
        rw [receive] at h
        subst h
        rw [hclosed, receiveLine_eq] at hline
        obtain ⟨value, -, hhandle⟩ := Option.bind_eq_some_iff.mp hline
        have hs : c.fail.session = none := rfl
        rw [handle, hs] at hhandle
        simp only at hhandle
        split at hhandle
        · obtain ⟨-, hhandle⟩ := Option.ite_none_right_eq_some.mp hhandle
          have hdrawn := congrArg drawn (Option.some.inj hhandle)
          rw [handleHello, drawn_enqueue] at hdrawn
          exact absurd hdrawn (Nat.succ_ne_self _)
        · cases hhandle
    · exact fail_generation _ (congrArg generation h)
  · have hroom : c.fail.buffer.length < maximumFrame := Nat.zero_lt_succ _
    rw [if_neg hb, if_pos hroom, receive] at h
    exact absurd (congrArg buffer h) (by simp [fail, close])

section

variable {byte : UInt8} {data : Data} {out : List Taken}

/-- Whether a chunk ends in a failure is decided behind the bytes that are taken. -/
theorem finalFailure_of_ok (h : receiveByte F token byte c = (out, .ok c'))
    (hg : c'.generation = c.generation) :
    FinalFailure F token c (byte :: data) ↔ FinalFailure F token c' data := by
  constructor
  · intro hc pre rest hd hne
    have := hc (byte :: pre) rest (by rw [hd, List.cons_append])
    rw [receive_of_ok h, receive_of_ok h, ← hg] at this
    exact this hne
  · intro hc pre rest hd hne
    cases pre with
    | nil => exact absurd rfl hne
    | cons b pre =>
        obtain ⟨rfl, hdata⟩ := List.cons.inj hd
        rw [receive_of_ok h, ← hg] at hne
        rw [receive_of_ok h, receive_of_ok h, ← hg]
        exact hc pre rest hdata hne

theorem answerable_of_ok (h : receiveByte F token byte c = (out, .ok c'))
    (hg : c'.generation = c.generation) (hfits : byte = 10 → ¬ Overflows F token c) :
    Answerable F token c (byte :: data) ↔ Answerable F token c' data := by
  constructor
  · intro hc pre rest hd hrest
    have := hc (byte :: pre) rest (by rw [hd, List.cons_append]) hrest
    rw [receive_of_ok h, ← hg] at this
    exact this
  · intro hc pre rest hd hrest hgen
    cases pre with
    | nil => exact hfits (List.cons.inj hd).1
    | cons b pre =>
        obtain ⟨rfl, hdata⟩ := List.cons.inj hd
        rw [receive_of_ok h, ← hg] at hgen
        rw [receive_of_ok h]
        exact hc pre rest hdata hrest hgen

/-- The byte fails inside `handle`: a failure is final for this chunk if it is the last byte. -/
theorem finalFailure_of_inside {c₁ : ControlChannel}
    (h : receiveByte F token byte c = (out, .ok c₁.fail)) (hg : c₁.generation = c.generation) :
    FinalFailure F token c (byte :: data) ↔ data = [] := by
  have hne : c₁.fail.generation ≠ c.generation := hg ▸ fail_generation c₁
  constructor
  · intro hc
    cases data with
    | nil => rfl
    | cons b data =>
        -- The next byte would have to leave the failed channel as it is.
        have h₁ := (hc [byte] (b :: data) rfl (by rw [receive_of_ok h]; exact hne)).1
        have hb : c.receive F token [byte, b] = c₁.fail.receive F token [b] := receive_of_ok h _
        have hgen : (c.receive F token [byte, b]).generation ≠ c.generation := by
          have hle := generation_le_receive F token b c₁.fail
          rw [hb, ← hg]
          exact Nat.ne_of_gt (Nat.lt_of_succ_le hle)
        have h₂ := (hc [byte, b] data rfl hgen).1
        rw [h₁, hb, receive_of_ok h] at h₂
        exact absurd h₂.symm (receive_fail_ne b c₁)
  · rintro rfl pre rest hd hgen
    cases pre with
    | nil => exact absurd rfl hgen
    | cons b pre =>
        obtain ⟨rfl, hdata⟩ := List.cons.inj hd
        obtain ⟨rfl, -⟩ := List.append_eq_nil_iff.mp hdata.symm
        exact ⟨rfl, c₁, hg, receive_of_ok h []⟩

/-- After an overflow the chunk can be answered exactly when nothing follows. -/
theorem answerable_of_overflow (hover : Overflows F token c) :
    Answerable F token c (10 :: data) ↔ data = [] := by
  constructor
  · intro hc
    by_contra hdata
    exact hc [] data rfl hdata rfl hover
  · rintro rfl pre rest hd hrest
    cases pre with
    | nil => exact absurd (List.cons.inj hd).2.symm hrest
    | cons b pre => simp at hd

end

/-- **When a failure is final.** -/
theorem failure_final_iff (F : Foundation) (token : String) (c : ControlChannel) (data : Data) :
    FinalFailure F token c data ↔ Answerable F token c data := by
  induction data generalizing c with
  | nil =>
      refine iff_of_true ?_ ?_
      · intro pre rest hd hg
        rw [(List.append_eq_nil_iff.mp hd.symm).1] at hg
        exact absurd rfl hg
      · intro pre rest hd
        simp at hd
  | cons byte data ih =>
      rcases byte_cases F token byte c with ⟨out, c', h, hg, hfits⟩ |
        ⟨out, c₁, h, hg, rfl, hover⟩ | ⟨out, r, c₁, h, hg, hfits⟩
      · rw [finalFailure_of_ok h hg, answerable_of_ok h hg hfits]
        exact ih c'
      · rw [finalFailure_of_inside h hg, answerable_of_overflow hover]
      · -- `receive` returned: the chunk ends here.
        refine iff_of_true ?_ ?_
        · intro pre rest hd hgen
          cases pre with
          | nil => exact absurd rfl hgen
          | cons b pre =>
              obtain ⟨rfl, -⟩ := List.cons.inj hd
              rw [receive_of_error h, receive_of_error h]
              exact ⟨rfl, c₁, hg, rfl⟩
        · intro pre rest hd hrest hgen
          cases pre with
          | nil => exact hfits (List.cons.inj hd).1
          | cons b pre =>
              obtain ⟨rfl, -⟩ := List.cons.inj hd
              rw [receive_of_error h] at hgen
              exact absurd hgen (hg ▸ fail_generation c₁)

end ControlChannel

namespace Sample

/-- A request that the channel refuses. -/
def stopRequest : Object :=
  (GuestFrame.request ⟨1, 0, session, 9, .host, [("action", .str "vm-stopped")]⟩).entries

def stopText : Data :=
  utf8 "\x7b\"type\":\"request\",\"id\":9,\"service\":\"host\",\"payload\":" ++
    utf8 "\x7b\"action\":\"vm-stopped\"\x7d,\"session\":\"" ++ utf8 session ++
    utf8 "\",\"version\":1\x7d"

def helloText : Data :=
  utf8 "\x7b\"type\":\"hello\",\"nonce\":\"" ++ utf8 nonce ++ utf8 "\",\"token\":\"" ++
    utf8 token ++ utf8 "\",\"version\":1\x7d"

def refusalText : Data :=
  utf8 "\x7b\"id\":9,\"payload\":\x7b\"error\":\"Supervisor endpoint required\",\"ok\":false\x7d," ++
    utf8 "\"session\":\"" ++ utf8 session ++ utf8 "\",\"type\":\"response\",\"version\":1\x7d"

def welcomeText : Data :=
  utf8 "\x7b\"nonce\":\"" ++ utf8 nonce ++ utf8 "\",\"session\":\"" ++
    utf8 (setting.foundation.uuidString 1) ++ utf8 "\",\"token\":\"" ++ utf8 token ++
    utf8 "\",\"type\":\"welcome\",\"version\":1\x7d"

/-- Foundation, on these texts. -/
def reading : Foundation where
  jsonObject l :=
    if l = stopText then some (.obj stopRequest)
    else if l = helloText then some (.obj (GuestFrame.hello nonce token).entries)
    else none
  data m :=
    if m = (HostFrame.response session 9 ControlChannel.supervisorRequired none).entries then
      some refusalText
    else if m = (HostFrame.welcome nonce (setting.foundation.uuidString 1) token).entries then
      some welcomeText
    else none
  isUUID := setting.foundation.isUUID
  uuidString := setting.foundation.uuidString
  uuidString_inj := setting.foundation.uuidString_inj

/-- A response of 32768 bytes with its newline. -/
def longLine (id : Int) : Line :=
  ⟨.response session id done (some 0), List.replicate 32767 32 ++ [10]⟩

/-- The long line fills a queue. -/
theorem length_longLine (id : Int) : (longLine id).bytes.length = 32768 := by
  rw [longLine, List.length_append, List.length_replicate, List.length_singleton]

/-- Eight such responses wait for the port, and fill the queue. -/
def full : ControlChannel := { ControlChannel.initial with
  session := some session
  queue := [longLine 1, longLine 2, longLine 3, longLine 4, longLine 5, longLine 6, longLine 7,
    longLine 8]
  queuedBytes := 262144
  writing := true
  lastRequest := 8
  drawn := 1
  writes := [(0, longLine 1)]
  output := [longLine 1] }

/-- The full channel has a writer. -/
theorem writer_full : full.Writer := by
  refine ⟨by simp [full], ?_, by decide⟩
  intro w hw
  simp only [full, List.mem_singleton] at hw
  rw [hw]
  exact le_rfl

end Sample

/-- **A failure need not be final**: the queue is full, the refusal of a request does not fit, and the
hello behind the request opens a session. -/
theorem failure_not_final : ¬ ∀ (F : Foundation) (token : String) (c : ControlChannel) (data : Data),
    c.Writer → c.queuedBytes = (c.queue.map fun line => line.bytes.length).sum →
      c.FinalFailure F token data := by
  intro hall
  have hsum : Sample.full.queuedBytes =
      (Sample.full.queue.map fun line => line.bytes.length).sum := by
    simp only [Sample.full, List.map_cons, List.map_nil, Sample.length_longLine]
    rfl
  have hpre : (Sample.full.receive Sample.reading Sample.token (Sample.stopText ++ [10])).generation =
        1 ∧ (Sample.full.receive Sample.reading Sample.token (Sample.stopText ++ [10])).session =
        none := by
    decide +kernel
  have hdata : (Sample.full.receive Sample.reading Sample.token
      ((Sample.stopText ++ [10]) ++ (Sample.helloText ++ [10]))).session ≠ none := by
    decide +kernel
  have hfinal := hall Sample.reading Sample.token Sample.full _ Sample.writer_full hsum
    (Sample.stopText ++ [10]) (Sample.helloText ++ [10]) rfl (by rw [hpre.1]; decide)
  rw [hfinal.1] at hdata
  exact hdata hpre.2

end Ashacky.Control
