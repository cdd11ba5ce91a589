import BeamSocket.Core.Events

/-!
# The flush buffer

Model of the module `flat` of `crates/node/src/bridge.rs` (lines 77–298): the encoding of
a batch of engine events into one buffer, and `decode`, which is kept in step with the
reader of the SDK. Lengths and counts are cast to `u32` when they are written. A slice out
of bounds and an unknown kind are panics of `decode`, here `none`.

* `decodeEvent_encodeEvent`: an event whose payload length fits its field is read back.
* `decode_encodeBatch`: so is a batch of them.
* `length_encodeBatch`: the buffer has the size it is allocated with.
-/

namespace BeamSocket.Node

open BeamSocket.Core BeamSocket.Lib

/-- `KIND_TEXT`. -/
def kindText : UInt8 := 0

/-- `KIND_BINARY`. -/
def kindBinary : UInt8 := 1

/-- `KIND_OPEN`. -/
def kindOpen : UInt8 := 2

/-- `KIND_CLOSE`. -/
def kindClose : UInt8 := 3

/-- `KIND_AUTHORIZE`. -/
def kindAuthorize : UInt8 := 4

/-! ## Encoding -/

/-- `lp_len`. -/
def lpLen (bytes : ℕ) : ℕ := 4 + bytes

/-- `authorize_payload_len` (lines 95–103). -/
def authorizePayloadLen (clientIp url : String) (headers : List (String × String)) : ℕ :=
  lpLen (asBytes clientIp).length + lpLen (asBytes url).length + 4 +
    (headers.map fun h => lpLen (asBytes h.1).length + lpLen (asBytes h.2).length).sum

/-- `event_payload_len` (lines 105–123). -/
def eventPayloadLen : EngineEvent → ℕ
  | .message _ payload _ => payload.length
  | .connectionOpened _ authRequest => if authRequest.isSome then 8 else 0
  | .connectionClosed _ _ reason => 2 + (asBytes reason).length
  | .authorize _ clientIp url headers => authorizePayloadLen clientIp url headers

/-- `encoded_len` (lines 127–133). -/
def encodedLen (batch : List EngineEvent) : ℕ :=
  4 + (batch.map fun e => 8 + 1 + 4 + eventPayloadLen e).sum

/-- `write_lp`. -/
def writeLp (bytes : Bytes) : Bytes := toLe 4 bytes.length ++ bytes

/-- One header of an authorize request. -/
def putHeader (h : String × String) : Bytes := writeLp (asBytes h.1) ++ writeLp (asBytes h.2)

/-- The id slot of an event; an authorize request has its number there. -/
def eventId : EngineEvent → UInt64
  | .message id _ _ => id
  | .connectionOpened id _ => id
  | .connectionClosed id _ _ => id
  | .authorize requestId _ _ _ => requestId

/-- The kind byte of an event. -/
def eventKind : EngineEvent → UInt8
  | .message _ _ isBinary => if isBinary then kindBinary else kindText
  | .connectionOpened _ _ => kindOpen
  | .connectionClosed _ _ _ => kindClose
  | .authorize _ _ _ _ => kindAuthorize

/-- The payload of an event, in the arms of `encode_batch` (lines 140–190). -/
def eventPayload : EngineEvent → Bytes
  | .message _ payload _ => payload
  | .connectionOpened _ (some requestId) => le64 requestId
  | .connectionOpened _ none => []
  | .connectionClosed _ code reason => le16 code ++ asBytes reason
  | .authorize _ clientIp url headers =>
    writeLp (asBytes clientIp) ++ writeLp (asBytes url) ++ toLe 4 headers.length ++
      headers.flatMap putHeader

/-- The body of the loop of `encode_batch` (lines 139–191): all arms write the id, the kind,
    the length cast to `u32`, and the payload. -/
def encodeEvent (ev : EngineEvent) : Bytes :=
  le64 (eventId ev) ++ [eventKind ev] ++ toLe 4 (eventPayloadLen ev) ++ eventPayload ev

/-- `encode_batch` (lines 136–193). -/
def encodeBatch (batch : List EngineEvent) : Bytes :=
  toLe 4 batch.length ++ batch.flatMap encodeEvent

/-! ## Decoding -/

/-- `enum DecodedEvent` (lines 213–237). -/
inductive DecodedEvent
  | message (connId : ConnectionId) (isBinary : Bool) (payload : Bytes)
  | opened (connId : ConnectionId) (authRequest : Option UInt64)
  | closed (connId : ConnectionId) (code : UInt16) (reason : Bytes)
  | authorize (requestId : UInt64) (clientIp url : Bytes) (headers : List (Bytes × Bytes))
  deriving DecidableEq, Repr

/-- `read_lp` (lines 202–208), with the new offset. -/
def readLp (buf : Bytes) (off : ℕ) : Option (Bytes × ℕ) := do
  let len ← slice? buf off 4
  let bytes ← slice? buf (off + 4) (fromLe len)
  some (bytes, off + 4 + fromLe len)

/-- One header (lines 281–285). -/
def readHeader (buf : Bytes) (off : ℕ) : Option ((Bytes × Bytes) × ℕ) := do
  let (k, off) ← readLp buf off
  let (v, off) ← readLp buf off
  some ((k, v), off)

/-- The arm of an authorize request (lines 273–292). -/
def decodeAuthorize (requestId : UInt64) (payload : Bytes) : Option DecodedEvent := do
  let (clientIp, p) ← readLp payload 0
  let (url, p) ← readLp payload p
  let hcount ← slice? payload p 4
  let (headers, _) ← getMany readHeader payload (fromLe hcount) (p + 4)
  some (.authorize requestId clientIp url headers)

/-- The `match` on the kind (lines 257–294). -/
def decodePayload (connId : UInt64) (kind : UInt8) (payload : Bytes) : Option DecodedEvent :=
  if kind = kindText ∨ kind = kindBinary then
    some (.message connId (kind = kindBinary) payload)
  else if kind = kindOpen then
    some (.opened connId (if payload.length = 8 then some (ofLe64 payload) else none))
  else if kind = kindClose then do
    let code ← slice? payload 0 2
    some (.closed connId (ofLe16 code) (payload.drop 2))
  else if kind = kindAuthorize then decodeAuthorize connId payload
  else none

/-- The body of the loop of `decode` (lines 248–295), with the new offset. -/
def decodeEvent (buf : Bytes) (off : ℕ) : Option (DecodedEvent × ℕ) := do
  let connId ← slice? buf off 8
  let kind ← buf[off + 8]?
  let len ← slice? buf (off + 9) 4
  let payload ← slice? buf (off + 13) (fromLe len)
  let ev ← decodePayload (ofLe64 connId) kind payload
  some (ev, off + 13 + fromLe len)

/-- `decode` (lines 241–297). -/
def decode (buf : Bytes) : Option (List DecodedEvent) :=
  if buf.length < 4 then some []
  else (getMany decodeEvent buf (fromLe (slice buf 0 4)) 4).map Prod.fst

/-- What an event is on the other side. -/
def decoded : EngineEvent → DecodedEvent
  | .message id payload isBinary => .message id isBinary payload
  | .connectionOpened id authRequest => .opened id authRequest
  | .connectionClosed id code reason => .closed id code (asBytes reason)
  | .authorize requestId clientIp url headers =>
    .authorize requestId (asBytes clientIp) (asBytes url)
      (headers.map fun h => (asBytes h.1, asBytes h.2))

/-! ## Reading back -/

@[simp] theorem length_writeLp (bytes : Bytes) : (writeLp bytes).length = lpLen bytes.length := by
  simp [writeLp, lpLen]

theorem length_headers (headers : List (String × String)) :
    (headers.flatMap putHeader).length =
      (headers.map fun h => lpLen (asBytes h.1).length + lpLen (asBytes h.2).length).sum := by
  simp [List.length_flatMap, putHeader]

/-- The length that is written is the length of the payload. -/
theorem length_eventPayload (ev : EngineEvent) :
    (eventPayload ev).length = eventPayloadLen ev := by
  cases ev with
  | message => rfl
  | connectionOpened id authRequest => cases authRequest <;> simp [eventPayload, eventPayloadLen]
  | connectionClosed => simp [eventPayload, eventPayloadLen]
  | authorize requestId clientIp url headers =>
    simp only [eventPayload, List.length_append, length_writeLp, length_toLe, length_headers]
    rfl

/-- The buffer is allocated with its size. -/
theorem length_encodeBatch (batch : List EngineEvent) :
    (encodeBatch batch).length = encodedLen batch := by
  have hevent : ∀ ev, (encodeEvent ev).length = 8 + 1 + 4 + eventPayloadLen ev := by
    intro ev
    simp [encodeEvent, length_eventPayload]
    omega
  simp [encodeBatch, encodedLen, List.length_flatMap, hevent]

theorem readLp_writeLp {bytes : Bytes} (h : bytes.length < 2 ^ 32) (p r : Bytes) :
    readLp (p ++ (writeLp bytes ++ r)) p.length =
      some (bytes, p.length + (writeLp bytes).length) := by
  have hlen : slice? (p ++ (writeLp bytes ++ r)) p.length 4 = some (toLe 4 bytes.length) := by
    rw [writeLp, List.append_assoc]
    exact slice?_append rfl (length_toLe ..).symm
  have hval : fromLe (toLe 4 bytes.length) = bytes.length := fromLe_toLe_of_lt h
  have hbytes : slice? (p ++ (writeLp bytes ++ r)) (p.length + 4) bytes.length = some bytes := by
    rw [writeLp, List.append_assoc, ← List.append_assoc p]
    exact slice?_append (by simp) rfl
  simp only [readLp, hlen, Option.bind_eq_bind, Option.bind_some, hval, hbytes]
  simp [lpLen, Nat.add_assoc]

/-- Every header counts in the length of the payload. -/
theorem headers_bound {clientIp url : String} {headers : List (String × String)} {n : ℕ}
    (h : authorizePayloadLen clientIp url headers < n) :
    headers.length < n ∧
      ∀ hd ∈ headers, (asBytes hd.1).length < n ∧ (asBytes hd.2).length < n := by
  unfold authorizePayloadLen lpLen at h
  set sizes := headers.map fun h => 4 + (asBytes h.1).length + (4 + (asBytes h.2).length)
    with hsizes
  constructor
  · have hcount : sizes.length ≤ sizes.sum := by
      apply List.length_le_sum_of_one_le
      intro i hi
      obtain ⟨hd, -, rfl⟩ := List.mem_map.mp hi
      omega
    rw [hsizes, List.length_map, ← hsizes] at hcount
    omega
  · intro hd hmem
    have hle : 4 + (asBytes hd.1).length + (4 + (asBytes hd.2).length) ≤ sizes.sum :=
      List.le_sum_of_mem (List.mem_map_of_mem hmem)
    omega

/-- What a reader of length-prefixed texts, which turns them into `f` of what was written, finds
    in the payload of an authorize request, wherever it stands: both texts, the number of headers
    behind them, and the headers. -/
theorem read_authorize {α : Type} {f : String → α} {read : Bytes → ℕ → Option (α × ℕ)}
    (hread : ∀ s, (asBytes s).length < 2 ^ 32 → ∀ p r,
      read (p ++ (writeLp (asBytes s) ++ r)) p.length =
        some (f s, p.length + (writeLp (asBytes s)).length))
    (readTwo : Bytes → ℕ → Option ((α × α) × ℕ))
    (htwo : ∀ buf off, readTwo buf off =
      (read buf off).bind fun k => (read buf k.2).bind fun v => some ((k.1, v.1), v.2))
    (requestId : UInt64) {clientIp url : String} {headers : List (String × String)}
    (h : authorizePayloadLen clientIp url headers < 2 ^ 32) (p r : Bytes) :
    ∃ a b c, let buf := p ++ (eventPayload (.authorize requestId clientIp url headers) ++ r)
      read buf p.length = some (f clientIp, a) ∧ read buf a = some (f url, b) ∧
        slice? buf b 4 = some (toLe 4 headers.length) ∧
        fromLe (toLe 4 headers.length) = headers.length ∧
        getMany readTwo buf headers.length (b + 4) =
          some (headers.map fun hd => (f hd.1, f hd.2), c) := by
  obtain ⟨hcount, hfields⟩ := headers_bound h
  have hheader : ∀ hd ∈ headers, ∀ p r, readTwo (p ++ (putHeader hd ++ r)) p.length =
      some ((f hd.1, f hd.2), p.length + (putHeader hd).length) := by
    intro hd hmem p r
    have hkey := hread hd.1 (hfields hd hmem).1 p (writeLp (asBytes hd.2) ++ r)
    have hvalue := hread hd.2 (hfields hd hmem).2 (p ++ writeLp (asBytes hd.1)) r
    rw [List.append_assoc, List.length_append] at hvalue
    rw [putHeader, List.append_assoc, htwo, hkey, Option.bind_some, hvalue, Option.bind_some,
      List.length_append, Nat.add_assoc]
  have hlen : (asBytes clientIp).length < 2 ^ 32 ∧ (asBytes url).length < 2 ^ 32 := by
    unfold authorizePayloadLen lpLen at h
    omega
  generalize hrest : toLe 4 headers.length ++ (headers.flatMap putHeader ++ r) = rest
  have hbuf : p ++ (eventPayload (.authorize requestId clientIp url headers) ++ r) =
      p ++ (writeLp (asBytes clientIp) ++ (writeLp (asBytes url) ++ rest)) := by
    simp [eventPayload, ← hrest]
  have hreadIp := hread clientIp hlen.1 p (writeLp (asBytes url) ++ rest)
  have hreadUrl := hread url hlen.2 (p ++ writeLp (asBytes clientIp)) rest
  generalize writeLp (asBytes clientIp) = ip at hbuf hreadIp hreadUrl
  generalize writeLp (asBytes url) = target at hbuf hreadIp hreadUrl
  have hreadCount : slice? (p ++ ip ++ target ++ rest) (p ++ ip ++ target).length 4 =
      some (toLe 4 headers.length) := by
    rw [← hrest]
    exact slice?_append rfl (length_toLe ..).symm
  have hreadHeaders := getMany_flatMap_map headers hheader
    (p ++ ip ++ target ++ toLe 4 headers.length) r
  rw [List.append_assoc _ (toLe _ _), hrest, List.length_append, length_toLe] at hreadHeaders
  have hassoc : p ++ (ip ++ (target ++ rest)) = p ++ ip ++ target ++ rest := by
    simp only [List.append_assoc]
  rw [hassoc] at hbuf
  rw [hassoc, ← List.length_append] at hreadIp
  rw [← List.append_assoc (p ++ ip), ← List.length_append] at hreadUrl
  rw [hbuf]
  exact ⟨_, _, _, hreadIp, hreadUrl, hreadCount, fromLe_toLe_of_lt hcount, hreadHeaders⟩

theorem decodeAuthorize_eventPayload {requestId : UInt64} {clientIp url : String}
    {headers : List (String × String)} (h : authorizePayloadLen clientIp url headers < 2 ^ 32) :
    decodeAuthorize requestId (eventPayload (.authorize requestId clientIp url headers)) =
      some (decoded (.authorize requestId clientIp url headers)) := by
  obtain ⟨a, b, c, hip, hurl, hcount, hval, hheaders⟩ :=
    read_authorize (fun _ hs => readLp_writeLp hs) readHeader (fun _ _ => rfl) requestId h [] []
  rw [List.nil_append, List.append_nil] at hip hurl hcount hheaders
  rw [decodeAuthorize, show readLp _ 0 = _ from hip]
  simp only [hurl, hcount, hval, hheaders, Option.bind_eq_bind, Option.bind_some]
  rfl

theorem decodePayload_eventPayload {ev : EngineEvent} (h : eventPayloadLen ev < 2 ^ 32) :
    decodePayload (eventId ev) (eventKind ev) (eventPayload ev) = some (decoded ev) := by
  cases ev with
  | message id payload isBinary => cases isBinary <;> rfl
  | connectionOpened id authRequest =>
    cases authRequest with
    | none => rfl
    | some requestId =>
      show some (DecodedEvent.opened id (if (le64 requestId).length = 8 then
        some (ofLe64 (le64 requestId)) else none)) = _
      rw [if_pos (length_le64 requestId), ofLe64_le64]
      rfl
  | connectionClosed id code reason =>
    have hcode : slice? ([] ++ (le16 code ++ asBytes reason)) 0 2 = some (le16 code) :=
      slice?_append rfl (length_le16 code).symm
    have hreason : (le16 code ++ asBytes reason).drop 2 = asBytes reason :=
      List.drop_left' (length_le16 code)
    show ((slice? (le16 code ++ asBytes reason) 0 2).bind fun field => some (DecodedEvent.closed id
      (ofLe16 field) ((le16 code ++ asBytes reason).drop 2))) = _
    rw [hreason]
    rw [List.nil_append] at hcode
    rw [hcode, Option.bind_some, ofLe16_le16]
    rfl
  | authorize requestId clientIp url headers => exact decodeAuthorize_eventPayload h

/-- An event whose payload length fits its field is read back, wherever it stands. -/
theorem decodeEvent_encodeEvent {ev : EngineEvent} (h : eventPayloadLen ev < 2 ^ 32)
    (p r : Bytes) :
    decodeEvent (p ++ (encodeEvent ev ++ r)) p.length =
      some (decoded ev, p.length + (encodeEvent ev).length) := by
  have hval : fromLe (toLe 4 (eventPayloadLen ev)) = eventPayloadLen ev := fromLe_toLe_of_lt h
  have hlen := length_eventPayload ev
  have hbuf : p ++ (encodeEvent ev ++ r) = p ++ (le64 (eventId ev) ++ (eventKind ev ::
      (toLe 4 (eventPayloadLen ev) ++ (eventPayload ev ++ r)))) := by
    simp [encodeEvent]
  have hid : slice? (p ++ (encodeEvent ev ++ r)) p.length 8 = some (le64 (eventId ev)) := by
    rw [hbuf]
    exact slice?_append rfl (length_le64 _).symm
  have hkind : (p ++ (encodeEvent ev ++ r))[p.length + 8]? = some (eventKind ev) := by
    rw [hbuf, ← List.append_assoc]
    exact getElem?_append_cons (by simp)
  have hfield : slice? (p ++ (encodeEvent ev ++ r)) (p.length + 9) 4 =
      some (toLe 4 (eventPayloadLen ev)) := by
    rw [hbuf, ← List.append_assoc, List.append_cons]
    exact slice?_append (by simp) (length_toLe ..).symm
  have hpayload : slice? (p ++ (encodeEvent ev ++ r)) (p.length + 13) (eventPayloadLen ev) =
      some (eventPayload ev) := by
    rw [hbuf, ← List.append_assoc, List.append_cons, ← List.append_assoc (_ ++ [_])]
    exact slice?_append (by simp) hlen.symm
  simp only [decodeEvent, hid, hkind, hfield, hval, hpayload, ofLe64_le64,
    decodePayload_eventPayload h, Option.bind_eq_bind, Option.bind_some]
  simp [encodeEvent, hlen]
  omega

/-- A batch of events whose payload lengths fit their fields is read back, whatever
    follows. -/
theorem decode_encodeBatch_append {batch : List EngineEvent} (hcount : batch.length < 2 ^ 32)
    (h : ∀ ev ∈ batch, eventPayloadLen ev < 2 ^ 32) (r : Bytes) :
    decode (encodeBatch batch ++ r) = some (batch.map decoded) := by
  have hbuf : encodeBatch batch ++ r =
      toLe 4 batch.length ++ (batch.flatMap encodeEvent ++ r) := List.append_assoc ..
  have hcountField : slice (encodeBatch batch ++ r) 0 4 = toLe 4 batch.length := by
    rw [hbuf]
    exact slice_zero_append (length_toLe ..).symm
  have hmany := getMany_flatMap_map batch (fun ev hev => decodeEvent_encodeEvent (h ev hev))
    (toLe 4 batch.length) r
  rw [length_toLe, ← hbuf] at hmany
  have hlong : ¬(encodeBatch batch ++ r).length < 4 := by
    rw [hbuf, List.length_append, length_toLe]
    omega
  rw [decode, if_neg hlong, hcountField, fromLe_toLe_of_lt hcount, hmany]
  rfl

theorem decode_encodeBatch {batch : List EngineEvent} (hcount : batch.length < 2 ^ 32)
    (h : ∀ ev ∈ batch, eventPayloadLen ev < 2 ^ 32) :
    decode (encodeBatch batch) = some (batch.map decoded) := by
  have happend := decode_encodeBatch_append hcount h []
  rw [List.append_nil] at happend
  exact happend

end BeamSocket.Node
