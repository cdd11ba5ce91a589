import BeamSocket.Node.Flat
import BeamSocket.Sdk.Headers
import BeamSocket.Sdk.SocketId

/-!
# The demultiplexer

Model of `demux` (`packages/beamsocket/src/events.ts`, lines 45–109), which reads a flush
buffer and calls a handler for each event. The numeric reads of a `Buffer` throw out of
bounds, here `none`; `subarray` and `toString` stop at its end. What `toString` makes of
ill-formed UTF-8 is a parameter, and so is what becomes of the names and values of an
authorize request: `groupHeaders` in the SDK.

* `demux_encodeBatch`: what the native layer encodes is read to its end, and the handlers are
  called with the events in order.
* `flush_agrees`: so it is by the reader of the native layer.
* `headers_grouped_iff`: the headers of an authorize request arrive grouped by name iff no name
  is a property of `Object.prototype`.
-/

namespace BeamSocket.Sdk

open BeamSocket.Lib BeamSocket.Core BeamSocket.Node

/-- `KIND_TEXT`. -/
def kindText : UInt8 := 0

/-- `KIND_BINARY`. -/
def kindBinary : UInt8 := 1

/-- `KIND_OPEN`. -/
def kindOpen : UInt8 := 2

/-- `KIND_CLOSE`. -/
def kindClose : UInt8 := 3

/-- `KIND_AUTHORIZE`. -/
def kindAuthorize : UInt8 := 4

/-- A call of one of the `DemuxHandlers` (lines 34–43), with headers of type `H`. -/
inductive HandlerCall (H : Type)
  | onOpen (idHi idLo : UInt32) (authReq : Option (UInt32 × UInt32))
  | onMessage (idHi idLo : UInt32) (payload : Bytes) (isBinary : Bool)
  | onClose (idHi idLo : UInt32) (code : UInt16) (reason : String)
  | onAuthorize (reqHi reqLo : UInt32) (ip url : String) (headers : H)
  deriving DecidableEq, Repr

/-! ## Reading a buffer -/

/-- `readUInt16LE`. -/
def readUInt16LE (buf : Bytes) (off : ℕ) : Option UInt16 := (slice? buf off 2).map ofLe16

/-- `readUInt32LE`. -/
def readUInt32LE (buf : Bytes) (off : ℕ) : Option UInt32 := (slice? buf off 4).map ofLe32

section

variable (lossy : Bytes → String) {H : Type} (collect : List (String × String) → H)

/-- `toString('utf8', off, off + n)`. -/
def toStringUtf8 (buf : Bytes) (off n : ℕ) : String :=
  (fromUtf8 (slice buf off n)).getD (lossy (slice buf off n))

/-- `readStr` (lines 77–83), with the new offset. -/
def readStr (buf : Bytes) (p : ℕ) : Option (String × ℕ) := do
  let n ← readUInt32LE buf p
  some (toStringUtf8 lossy buf (p + 4) n.toNat, p + 4 + n.toNat)

/-- A name and a value (lines 90–91). -/
def readPair (buf : Bytes) (p : ℕ) : Option ((String × String) × ℕ) := do
  let (name, p) ← readStr lossy buf p
  let (value, p) ← readStr lossy buf p
  some ((name, value), p)

/-- The arm of an authorize request (lines 74–103). -/
def demuxAuthorize (idHi idLo : UInt32) (buf : Bytes) (off : ℕ) : Option (HandlerCall H) := do
  let (ip, p) ← readStr lossy buf off
  let (url, p) ← readStr lossy buf p
  let hCount ← readUInt32LE buf p
  let (pairs, _) ← getMany (readPair lossy) buf hCount.toNat (p + 4)
  some (.onAuthorize idHi idLo ip url (collect pairs))

/-- The `switch` (lines 55–106). A kind out of bounds is `undefined`. -/
def demuxPayload (idHi idLo : UInt32) (kind : Option UInt8) (buf : Bytes) (off len : ℕ) :
    Option (HandlerCall H) :=
  if kind = some kindText ∨ kind = some kindBinary then
    some (.onMessage idHi idLo (slice buf off len) (kind = some kindBinary))
  else if kind = some kindOpen then
    if len = 8 then do
      let lo ← readUInt32LE buf off
      let hi ← readUInt32LE buf (off + 4)
      some (.onOpen idHi idLo (some (hi, lo)))
    else some (.onOpen idHi idLo none)
  else if kind = some kindClose then do
    let code ← readUInt16LE buf off
    let reason := if 2 < len then toStringUtf8 lossy buf (off + 2) (len - 2) else ""
    some (.onClose idHi idLo code reason)
  else if kind = some kindAuthorize then demuxAuthorize lossy collect idHi idLo buf off
  else none

/-- The body of the loop (lines 48–108): the call it makes, and the new offset. -/
def demuxEvent (buf : Bytes) (off : ℕ) : Option (HandlerCall H × ℕ) := do
  let idLo ← readUInt32LE buf off
  let idHi ← readUInt32LE buf (off + 4)
  let len ← readUInt32LE buf (off + 9)
  let call ← demuxPayload lossy collect idHi idLo buf[off + 8]? buf (off + 13) len.toNat
  some (call, off + 13 + len.toNat)

/-- The loop: the calls that are made, and the offset behind the last event unless an error is
    thrown. -/
def demuxLoop (buf : Bytes) : (count off : ℕ) → List (HandlerCall H) × Option ℕ
  | 0, off => ([], some off)
  | count + 1, off =>
    match demuxEvent lossy collect buf off with
    | none => ([], none)
    | some (call, off) =>
      let (calls, stop) := demuxLoop buf count off
      (call :: calls, stop)

/-- `demux` (lines 45–109). -/
def demux (buf : Bytes) : List (HandlerCall H) × Option ℕ :=
  match readUInt32LE buf 0 with
  | none => ([], none)
  | some count => demuxLoop lossy collect buf count.toNat 4

end

/-- The call for an event. -/
def called {H : Type} (collect : List (String × String) → H) : EngineEvent → HandlerCall H
  | .message id payload isBinary => .onMessage (idHi id) (idLo id) payload isBinary
  | .connectionOpened id authRequest =>
    .onOpen (idHi id) (idLo id) (authRequest.map fun r => (idHi r, idLo r))
  | .connectionClosed id code reason => .onClose (idHi id) (idLo id) code reason
  | .authorize requestId clientIp url headers =>
    .onAuthorize (idHi requestId) (idLo requestId) clientIp url (collect headers)

/-! ## Reading back -/

theorem le64_halves (id : UInt64) : le64 id = le32 (idLo id) ++ le32 (idHi id) := by
  have hlow : toLe 4 (id.toNat % 4294967296) = toLe 4 id.toNat := by
    have hread := toLe_fromLe (toLe 4 id.toNat)
    rw [length_toLe, fromLe_toLe] at hread
    exact hread
  rw [le64, le32, le32, toNat_idLo, toNat_idHi, hlow]
  exact toLe_add 4 4 id.toNat

theorem readUInt32LE_le32 (x : UInt32) {p r : Bytes} {off : ℕ} (hoff : off = p.length) :
    readUInt32LE (p ++ (le32 x ++ r)) off = some x := by
  rw [readUInt32LE, slice?_append hoff (length_le32 x).symm, Option.map_some, ofLe32_le32]

theorem readUInt32LE_toLe {n : ℕ} (h : n < 2 ^ 32) (p r : Bytes) :
    ∃ x, readUInt32LE (p ++ (toLe 4 n ++ r)) p.length = some x ∧ x.toNat = n := by
  refine ⟨ofLe32 (toLe 4 n), ?_, ?_⟩
  · rw [readUInt32LE, slice?_append rfl (length_toLe ..).symm, Option.map_some]
  · rw [ofLe32, UInt32.toNat_ofNat', fromLe_toLe_of_lt h, Nat.mod_eq_of_lt h]

variable (lossy : Bytes → String) {H : Type} (collect : List (String × String) → H)

theorem toStringUtf8_asBytes (s : String) {p r : Bytes} {off n : ℕ} (hoff : off = p.length)
    (hn : n = (asBytes s).length) : toStringUtf8 lossy (p ++ (asBytes s ++ r)) off n = s := by
  rw [toStringUtf8, slice_append hoff hn, fromUtf8_asBytes, Option.getD_some]

theorem readStr_writeLp {s : String} (h : (asBytes s).length < 2 ^ 32) (p r : Bytes) :
    readStr lossy (p ++ (writeLp (asBytes s) ++ r)) p.length =
      some (s, p.length + (writeLp (asBytes s)).length) := by
  have hbuf : p ++ (writeLp (asBytes s) ++ r) =
      p ++ (toLe 4 (asBytes s).length ++ (asBytes s ++ r)) := by
    rw [writeLp, List.append_assoc]
  obtain ⟨n, hn, hval⟩ := readUInt32LE_toLe h p (asBytes s ++ r)
  have htext : toStringUtf8 lossy (p ++ (writeLp (asBytes s) ++ r)) (p.length + 4) n.toNat = s := by
    rw [hbuf, ← List.append_assoc]
    exact toStringUtf8_asBytes lossy s (by simp) hval
  rw [← hbuf] at hn
  rw [hval] at htext
  simp only [readStr, hn, Option.bind_eq_bind, Option.bind_some, htext, hval, length_writeLp, lpLen,
    Nat.add_assoc]

theorem demuxAuthorize_eventPayload (idHi idLo : UInt32) {requestId : UInt64}
    {clientIp url : String} {headers : List (String × String)}
    (h : authorizePayloadLen clientIp url headers < 2 ^ 32) (p r : Bytes) :
    demuxAuthorize lossy collect idHi idLo
        (p ++ (eventPayload (.authorize requestId clientIp url headers) ++ r)) p.length =
      some (.onAuthorize idHi idLo clientIp url (collect headers)) := by
  obtain ⟨a, b, c, hip, hurl, hcount, hval, hheaders⟩ :=
    read_authorize (fun _ hs => readStr_writeLp lossy hs) (readPair lossy) (fun _ _ => rfl)
      requestId h p r
  have hn : (ofLe32 (toLe 4 headers.length)).toNat = headers.length := by
    have hlt := (headers_bound h).1
    rw [ofLe32, UInt32.toNat_ofNat', hval, Nat.mod_eq_of_lt hlt]
  rw [List.map_id'] at hheaders
  simp only [demuxAuthorize, hip, hurl, readUInt32LE, hcount, Option.map_some, hn, hheaders,
    Option.bind_eq_bind, Option.bind_some]

/-- The call for the payload of an event, wherever it stands. -/
theorem demuxPayload_eventPayload {ev : EngineEvent} (h : eventPayloadLen ev < 2 ^ 32)
    (p r : Bytes) :
    demuxPayload lossy collect (idHi (eventId ev)) (idLo (eventId ev)) (some (eventKind ev))
      (p ++ (eventPayload ev ++ r)) p.length (eventPayloadLen ev) =
      some (called collect ev) := by
  cases ev with
  | message id payload isBinary =>
    have hslice : slice (p ++ (payload ++ r)) p.length payload.length = payload :=
      slice_append rfl rfl
    cases isBinary with
    | false => exact congrArg (fun b => some (HandlerCall.onMessage _ _ b false)) hslice
    | true => exact congrArg (fun b => some (HandlerCall.onMessage _ _ b true)) hslice
  | connectionOpened id authRequest =>
    cases authRequest with
    | none => rfl
    | some requestId =>
      have hbuf : p ++ (le64 requestId ++ r) =
          p ++ (le32 (idLo requestId) ++ (le32 (idHi requestId) ++ r)) := by
        rw [le64_halves, List.append_assoc]
      have hlo : readUInt32LE (p ++ (le64 requestId ++ r)) p.length = some (idLo requestId) := by
        rw [hbuf]
        exact readUInt32LE_le32 _ rfl
      have hhi : readUInt32LE (p ++ (le64 requestId ++ r)) (p.length + 4) =
          some (idHi requestId) := by
        rw [hbuf, ← List.append_assoc]
        exact readUInt32LE_le32 _ (by simp)
      show ((readUInt32LE (p ++ (le64 requestId ++ r)) p.length).bind fun lo =>
        (readUInt32LE (p ++ (le64 requestId ++ r)) (p.length + 4)).bind fun hi =>
          some (HandlerCall.onOpen _ _ (some (hi, lo)))) = _
      rw [hlo, Option.bind_some, hhi, Option.bind_some]
      rfl
  | connectionClosed id code reason =>
    have hbuf : p ++ (le16 code ++ asBytes reason ++ r) =
        p ++ (le16 code ++ (asBytes reason ++ r)) := by
      rw [List.append_assoc]
    have hcode : readUInt16LE (p ++ (le16 code ++ asBytes reason ++ r)) p.length = some code := by
      rw [hbuf, readUInt16LE, slice?_append rfl (length_le16 code).symm, Option.map_some,
        ofLe16_le16]
    have hreason : toStringUtf8 lossy (p ++ (le16 code ++ asBytes reason ++ r)) (p.length + 2)
        (2 + (asBytes reason).length - 2) = reason := by
      rw [hbuf, ← List.append_assoc]
      exact toStringUtf8_asBytes lossy reason (by simp) (by omega)
    have htext : (if 2 < 2 + (asBytes reason).length then
        toStringUtf8 lossy (p ++ (le16 code ++ asBytes reason ++ r)) (p.length + 2)
          (2 + (asBytes reason).length - 2) else "") = reason := by
      split_ifs with hlong
      · exact hreason
      · have hempty : asBytes reason = [] := List.length_eq_zero_iff.mp (by omega)
        have hread := fromUtf8_asBytes reason
        rw [hempty] at hread
        exact Option.some.inj hread
    show ((readUInt16LE (p ++ (le16 code ++ asBytes reason ++ r)) p.length).bind fun field =>
      some (HandlerCall.onClose _ _ field (if 2 < 2 + (asBytes reason).length then
        toStringUtf8 lossy (p ++ (le16 code ++ asBytes reason ++ r)) (p.length + 2)
          (2 + (asBytes reason).length - 2) else ""))) = _
    rw [hcode, Option.bind_some, htext]
    rfl
  | authorize requestId clientIp url headers =>
    exact demuxAuthorize_eventPayload lossy collect _ _ h p r

/-- An event whose payload length fits its field is read back, wherever it stands. -/
theorem demuxEvent_encodeEvent {ev : EngineEvent} (h : eventPayloadLen ev < 2 ^ 32)
    (p r : Bytes) :
    demuxEvent lossy collect (p ++ (encodeEvent ev ++ r)) p.length =
      some (called collect ev, p.length + (encodeEvent ev).length) := by
  have hlen := length_eventPayload ev
  have hids : p ++ (encodeEvent ev ++ r) = p ++ (le32 (idLo (eventId ev)) ++
      (le32 (idHi (eventId ev)) ++ (eventKind ev ::
        (toLe 4 (eventPayloadLen ev) ++ (eventPayload ev ++ r))))) := by
    simp [encodeEvent, le64_halves]
  generalize hhead : p ++ (le64 (eventId ev) ++ [eventKind ev]) = head
  have hheadLen : head.length = p.length + 9 := by
    rw [← hhead]
    simp
  have hfields : p ++ (encodeEvent ev ++ r) =
      head ++ (toLe 4 (eventPayloadLen ev) ++ (eventPayload ev ++ r)) := by
    simp [← hhead, encodeEvent]
  have hlo : readUInt32LE (p ++ (encodeEvent ev ++ r)) p.length = some (idLo (eventId ev)) := by
    rw [hids]
    exact readUInt32LE_le32 _ rfl
  have hhi : readUInt32LE (p ++ (encodeEvent ev ++ r)) (p.length + 4) =
      some (idHi (eventId ev)) := by
    rw [hids, ← List.append_assoc]
    exact readUInt32LE_le32 _ (by simp)
  have hkind : (p ++ (encodeEvent ev ++ r))[p.length + 8]? = some (eventKind ev) := by
    rw [hids, ← List.append_assoc, ← List.append_assoc (p ++ _)]
    exact getElem?_append_cons (by simp)
  obtain ⟨n, hfield, hval⟩ := readUInt32LE_toLe h head (eventPayload ev ++ r)
  have hpayload := demuxPayload_eventPayload lossy collect h
    (head ++ toLe 4 (eventPayloadLen ev)) r
  rw [← hfields, hheadLen] at hfield
  rw [List.append_assoc, ← hfields, List.length_append, length_toLe, hheadLen] at hpayload
  simp only [demuxEvent, hlo, hhi, hkind, hfield, hval, hpayload, Option.bind_eq_bind,
    Option.bind_some]
  simp [encodeEvent, hlen]
  omega

theorem demuxLoop_flatMap {batch : List EngineEvent}
    (h : ∀ ev ∈ batch, eventPayloadLen ev < 2 ^ 32) (p r : Bytes) :
    demuxLoop lossy collect (p ++ (batch.flatMap encodeEvent ++ r)) batch.length p.length =
      (batch.map (called collect), some (p.length + (batch.flatMap encodeEvent).length)) := by
  induction batch generalizing p with
  | nil => rfl
  | cons ev batch ih =>
    have hfirst := demuxEvent_encodeEvent lossy collect (h ev (List.mem_cons_self ..)) p
      (batch.flatMap encodeEvent ++ r)
    have hrest := ih (fun e he => h e (List.mem_cons_of_mem _ he)) (p ++ encodeEvent ev)
    rw [List.length_append, List.append_assoc] at hrest
    rw [List.flatMap_cons, List.append_assoc, List.length_cons, demuxLoop, hfirst]
    dsimp only
    rw [hrest, List.length_append, Nat.add_assoc, List.map_cons]

/-- A flush buffer is read to its end, and the handlers are called with its events in order. -/
theorem demux_encodeBatch {batch : List EngineEvent} (hcount : batch.length < 2 ^ 32)
    (h : ∀ ev ∈ batch, eventPayloadLen ev < 2 ^ 32) :
    demux lossy collect (encodeBatch batch) =
      (batch.map (called collect), some (encodedLen batch)) := by
  have hbuf : encodeBatch batch =
      toLe 4 batch.length ++ (batch.flatMap encodeEvent ++ []) := by
    simp [encodeBatch]
  obtain ⟨n, hread, hval⟩ := readUInt32LE_toLe hcount [] (batch.flatMap encodeEvent ++ [])
  rw [List.nil_append, List.length_nil, ← hbuf] at hread
  have hloop := demuxLoop_flatMap lossy collect h (toLe 4 batch.length) []
  rw [← hbuf, length_toLe] at hloop
  rw [demux, hread]
  dsimp only
  rw [hval, hloop, ← length_encodeBatch, encodeBatch, List.length_append, length_toLe]

/-- A batch with fewer than `2 ^ 32` events, whose payloads are shorter than `2 ^ 32` bytes,
    takes the bytes that were allocated for it. The reader of the native layer returns its
    events in order. The SDK reads all of the buffer and calls its handlers with the events in
    order; `collect` is applied to the names and values of the event in order. -/
theorem flush_agrees (batch : List EngineEvent) (hcount : batch.length < 2 ^ 32)
    (h : ∀ ev ∈ batch, eventPayloadLen ev < 2 ^ 32) :
    (encodeBatch batch).length = encodedLen batch ∧
      decode (encodeBatch batch) = some (batch.map decoded) ∧
      demux lossy collect (encodeBatch batch) =
        (batch.map (called collect), some (encodeBatch batch).length) := by
  refine ⟨length_encodeBatch batch, decode_encodeBatch hcount h, ?_⟩
  rw [length_encodeBatch]
  exact demux_encodeBatch lossy collect hcount h

/-- A request with a repeated header. -/
def cookies : List (String × String) := [("cookie", "a=1"), ("host", "b"), ("cookie", "c=2")]

/-- The request, and the connection that it becomes. -/
def session : List EngineEvent :=
  [.authorize 1 "::1" "/chat" cookies, .connectionOpened 7 (some 1), .message 7 [104, 105] false,
    .message 7 [0, 255] true, .connectionClosed 7 1000 "bye"]

theorem flush_agrees_on_session :
    decode (encodeBatch session) = some (session.map decoded) ∧
      demux (fun _ => "") (groupHeaders []) (encodeBatch session) =
        ([.onAuthorize 0 1 "::1" "/chat" (groupHeaders [] cookies), .onOpen 0 7 (some (0, 1)),
          .onMessage 0 7 [104, 105] false, .onMessage 0 7 [0, 255] true,
          .onClose 0 7 1000 "bye"], some 153) :=
  (flush_agrees (fun _ => "") (groupHeaders []) session (by decide) (by decide)).2

/-- Of an authorize request in a flush buffer, the handler gets the headers grouped by name, as
    own properties of an object literal, iff no name is a property of `Object.prototype`. -/
theorem headers_grouped_iff (arrayPrototype : List String) (batch : List EngineEvent)
    (hcount : batch.length < 2 ^ 32) (h : ∀ ev ∈ batch, eventPayloadLen ev < 2 ^ 32) (i : ℕ)
    (requestId : UInt64) (clientIp url : String) (headers : List (String × String))
    (hev : batch[i]? = some (.authorize requestId clientIp url headers)) :
    ∃ obj, (demux lossy (groupHeaders arrayPrototype) (encodeBatch batch)).1[i]? =
        some (.onAuthorize (idHi requestId) (idLo requestId) clientIp url obj) ∧
      (Grouped headers obj ↔ ∀ h ∈ headers, h.1 ∉ objectPrototype) := by
  refine ⟨groupHeaders arrayPrototype headers, ?_, grouped_iff arrayPrototype headers⟩
  rw [demux_encodeBatch lossy (groupHeaders arrayPrototype) hcount h, List.getElem?_map, hev]
  rfl

theorem cookies_grouped : ∃ obj,
    (demux (fun _ => "") (groupHeaders []) (encodeBatch session)).1[0]? =
        some (.onAuthorize 0 1 "::1" "/chat" obj) ∧ Grouped cookies obj := by
  obtain ⟨obj, hcall, hgrouped⟩ := headers_grouped_iff (fun _ => "") [] session (by decide)
    (by decide) 0 1 "::1" "/chat" cookies rfl
  exact ⟨obj, hcall, hgrouped.mpr (by decide)⟩

/-- An upgrade request with one header. -/
def upgrade (name value : String) : EngineEvent := .authorize 1 "::1" "/" [(name, value)]

/-- The header `constructor` is passed on as an array of the function `Object` and the value. -/
theorem constructor_header_not_grouped :
    (demux (fun _ => "") (groupHeaders []) (encodeBatch [upgrade "constructor" "x"])).1 =
        [.onAuthorize 0 1 "::1" "/" (groupHeaders [] [("constructor", "x")])] ∧
      (groupHeaders [] [("constructor", "x")]).own =
        [("constructor", .array [.intrinsic "constructor", .str "x"])] ∧
      ¬Grouped [("constructor", "x")] (groupHeaders [] [("constructor", "x")]) := by
  refine ⟨?_, by decide, ?_⟩
  · rw [demux_encodeBatch _ _ (by decide) (by decide)]
    rfl
  · intro hg
    exact absurd (hg.own "constructor") (by decide)

end BeamSocket.Sdk
