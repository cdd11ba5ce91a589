import BeamSocket.Core.Authorizer
import BeamSocket.Sdk.Correlation
import BeamSocket.Sdk.Demux

/-!
# The server object

Model of what `BeamSocket` (`packages/beamsocket/src/server.ts`, lines 540–644) does with the
events of a flush, of `Socket` (`socket.ts`) and of `resolve_authorize`
(`crates/node/src/binding.rs`, lines 565–584). JavaScript runs to completion, so an event is
one handler call, one settled `authorize` hook, one call of the application on a socket, or
`close()`. `Socket` objects are numbered as they are constructed, and the map of the server
holds their numbers. What a hook returns is arbitrary, and so is the type of the metadata.

* `Server.socket_life`: what a socket emits, and the native calls made on it, are those of an
  automaton that reads only the events of its own connection.
-/

namespace BeamSocket.Sdk

open BeamSocket.Lib BeamSocket.Mesh BeamSocket.Core

/-! ## Sockets -/

/-- What the listeners of a `Socket` are called with. -/
inductive SocketEmit
  | message (payload : Bytes) (isBinary : Bool)
  | close (code : UInt16) (reason : String)
  deriving DecidableEq, Repr

namespace SocketEmit

/-- The event is a `close`. -/
def isClose : SocketEmit → Bool
  | message _ _ => false
  | close _ _ => true

/-- The handler call for which a socket emits the event. -/
def call {H : Type} (hi lo : UInt32) : SocketEmit → HandlerCall H
  | message payload isBinary => .onMessage hi lo payload isBinary
  | close code reason => .onClose hi lo code reason

end SocketEmit

/-- The methods of a `Socket` that call the native layer. -/
inductive SocketOp
  | sendText (data : String)
  | send (data : Bytes)
  | join (room : String)
  | leave (room : String)
  | close (code : UInt32) (reason : String)
  deriving DecidableEq, Repr

/-- `class Socket`, with metadata of type `M`. -/
structure Socket (M : Type) where
  id : String
  userId : Option String
  metadata : M
  idHi : UInt32
  idLo : UInt32
  closed : Bool
  /-- Oldest first. -/
  emitted : List SocketEmit
  deriving DecidableEq, Repr

namespace Socket

variable {M : Type}

/-- The constructor (`socket.ts`, lines 37–52). -/
def new [EmptyCollection M] (idHi idLo : UInt32) (userId : Option String) (metadata : Option M)
    (node : Option NodeId) : Socket M :=
  { id := encodeSocketId idHi idLo node, userId, metadata := metadata.getD ∅, idHi, idLo,
    closed := false, emitted := [] }

/-- `emit`, with the event appended to the log. -/
def emit (socket : Socket M) (e : SocketEmit) : Socket M :=
  { socket with emitted := socket.emitted ++ [e] }

/-- `_handleClose` (lines 100–103). -/
def handleClose (socket : Socket M) (code : UInt16) (reason : String) : Socket M :=
  { socket with closed := true }.emit (.close code reason)

/-- A socket hears of an event of its connection. -/
def hear (socket : Socket M) : SocketEmit → Socket M
  | .message payload isBinary => socket.emit (.message payload isBinary)
  | .close code reason => socket.handleClose code reason

@[simp] theorem id_hear (socket : Socket M) (e : SocketEmit) : (socket.hear e).id = socket.id := by
  cases e <;> rfl

@[simp] theorem idHi_hear (socket : Socket M) (e : SocketEmit) :
    (socket.hear e).idHi = socket.idHi := by
  cases e <;> rfl

@[simp] theorem idLo_hear (socket : Socket M) (e : SocketEmit) :
    (socket.hear e).idLo = socket.idLo := by
  cases e <;> rfl

@[simp] theorem emitted_hear (socket : Socket M) (e : SocketEmit) :
    (socket.hear e).emitted = socket.emitted ++ [e] := by
  cases e <;> rfl

@[simp] theorem closed_hear (socket : Socket M) (e : SocketEmit) :
    (socket.hear e).closed = (e.isClose || socket.closed) := by
  cases e <;> rfl

end Socket

/-- A call into the native layer. -/
inductive NativeCall
  | resolveAuthorize (reqHi reqLo : UInt32) (accept : Bool) (userId : String) (hasUserId : Bool)
    (code : UInt32)
  | socket (idHi idLo : UInt32) (op : SocketOp)
  deriving DecidableEq, Repr

/-- `resolve_authorize` (`binding.rs`, lines 565–584): the request it resolves, and how. -/
def NativeCall.resolves : NativeCall → Option (UInt64 × AuthorizeOutcome)
  | .resolveAuthorize reqHi reqLo accept userId hasUserId code =>
    some (connId reqHi reqLo,
      if accept then .accept (if hasUserId then some userId else none)
      else .reject code.toUInt16)
  | .socket _ _ _ => none

/-! ## The server -/

/-- `interface PendingAuth`. -/
structure PendingAuth (M : Type) where
  userId : Option String
  metadata : Option M
  deriving DecidableEq, Repr

/-- How the promise of an `authorize` hook settles. -/
inductive HookResult (M : Type)
  | accept (userId : Option String) (metadata : Option M)
  | reject (code : Option UInt32)
  | throws
  deriving DecidableEq, Repr

/-- A call of the `authorize` hook. -/
structure HookCall (H : Type) where
  reqHi : UInt32
  reqLo : UInt32
  ip : String
  url : String
  headers : H
  deriving DecidableEq, Repr

/-- `PENDING_AUTH_CAP`. -/
def pendingAuthCap : ℕ := 16384

/-- `RejectCode.UNAUTHORIZED`. -/
def rejectUnauthorized : UInt32 := 1008

/-- `RejectCode.AUTH_ERROR`. -/
def rejectAuthError : UInt32 := 1011

/-- `reqKey` (lines 54–56). -/
def reqKey (hi lo : UInt32) : String :=
  String.ofList (numeral 10 hi.toNat ++ ':' :: numeral 10 lo.toNat)

namespace HookResult

variable {H M : Type}

/-- What an accept leaves in the correlation store (lines 623–626). -/
def stash (call : HookCall H) (store : BoundedMetaMap (PendingAuth M)) :
    HookResult M → BoundedMetaMap (PendingAuth M)
  | accept userId metadata => store.set (reqKey call.reqHi call.reqLo) ⟨userId, metadata⟩
  | _ => store

/-- The native call for a result (lines 627–636 and 641). -/
def resolution (call : HookCall H) : HookResult M → NativeCall
  | accept userId _ =>
    .resolveAuthorize call.reqHi call.reqLo true (userId.getD "") userId.isSome 0
  | reject code =>
    .resolveAuthorize call.reqHi call.reqLo false "" false (code.getD rejectUnauthorized)
  | throws => .resolveAuthorize call.reqHi call.reqLo false "" false rejectAuthError

end HookResult

/-- `class BeamSocket` once it has started the engine. -/
structure Server (H M : Type) where
  nodeId : Option NodeId
  /-- `#authorizeFn` is set. -/
  hasHook : Bool
  /-- `#engine` is set, and the native engine has not been taken out by `close`. -/
  running : Bool
  /-- Socket ids, with the number of the object. -/
  sockets : InsertionMap String ℕ
  objects : List (Socket M)
  pendingAuth : BoundedMetaMap (PendingAuth M)
  /-- The hooks that have not settled. -/
  hooks : List (HookCall H)
  /-- The native calls that did not throw, oldest first. -/
  native : List NativeCall
  /-- Unhandled rejections, and exceptions of socket methods. -/
  thrown : ℕ

/-- What can happen to the server object: a call of `demux`, a hook that settles, a call of the
    application. -/
inductive ServerEvent (H M : Type)
  | handle (call : HandlerCall H)
  /-- Hook `k` of the unsettled ones settles. -/
  | settle (k : ℕ) (result : HookResult M)
  /-- The application calls a method of socket object `k`. -/
  | use (k : ℕ) (op : SocketOp)
  | close
  deriving DecidableEq, Repr

namespace Server

variable {H M : Type}

/-- The server object when `#ensureStarted` has returned. -/
def new (nodeId : Option NodeId) (hasHook : Bool) : Server H M :=
  { nodeId, hasHook, running := true, sockets := ∅, objects := [],
    pendingAuth := .new pendingAuthCap, hooks := [], native := [], thrown := 0 }

/-- A method of the native engine is called: `engine()` fails once `close` has taken it
    (`binding.rs`, lines 838–865). -/
def callNative (s : Server H M) (call : NativeCall) : Server H M :=
  if s.running then { s with native := s.native ++ [call] } else { s with thrown := s.thrown + 1 }

/-- What the hook returned for a connection, taken out of the store (lines 579–582). -/
def takeAuth (s : Server H M) :
    Option (UInt32 × UInt32) → Option (PendingAuth M) × BoundedMetaMap (PendingAuth M)
  | some (reqHi, reqLo) => s.pendingAuth.take (reqKey reqHi reqLo)
  | none => (none, s.pendingAuth)

/-- The socket that is constructed for a connection (line 583). -/
def socketFor [EmptyCollection M] (s : Server H M) (hi lo : UInt32)
    (authReq : Option (UInt32 × UInt32)) : Socket M :=
  let info := (s.takeAuth authReq).1
  .new hi lo (info.bind (·.userId)) (info.bind (·.metadata)) s.nodeId

/-- A connection opens (lines 579–585). -/
def opened [EmptyCollection M] (s : Server H M) (hi lo : UInt32)
    (authReq : Option (UInt32 × UInt32)) : Server H M :=
  let socket := s.socketFor hi lo authReq
  { s with
    pendingAuth := (s.takeAuth authReq).2
    objects := s.objects ++ [socket]
    sockets := s.sockets.set socket.id s.objects.length }

/-- The handler `onOpen` (lines 574–586). -/
def onOpen [EmptyCollection M] (s : Server H M) (hi lo : UInt32)
    (authReq : Option (UInt32 × UInt32)) : Server H M :=
  if s.running then s.opened hi lo authReq else s

/-- The handler `onMessage` (lines 587–590). -/
def onMessage (s : Server H M) (hi lo : UInt32) (payload : Bytes) (isBinary : Bool) :
    Server H M :=
  match s.sockets.get (encodeSocketId hi lo s.nodeId) with
  | some k => { s with objects := s.objects.modify k (·.emit (.message payload isBinary)) }
  | none => s

/-- The handler `onClose` (lines 591–598). -/
def onClose (s : Server H M) (hi lo : UInt32) (code : UInt16) (reason : String) : Server H M :=
  let key := encodeSocketId hi lo s.nodeId
  match s.sockets.get key with
  | some k =>
    { s with
      sockets := s.sockets.delete key
      objects := s.objects.modify k (·.handleClose code reason) }
  | none => s

/-- `#handleAuthorize` (lines 609–643) up to the call of the hook. -/
def handleAuthorize (s : Server H M) (call : HookCall H) : Server H M :=
  if s.running then
    if s.hasHook then { s with hooks := s.hooks ++ [call] }
    else s.callNative (.resolveAuthorize call.reqHi call.reqLo true "" false 0)
  else s

/-- The callbacks of `#handleAuthorize` (lines 620–642). When the native call throws, so does the
    one of the `catch`, and nobody handles that: one rejection. -/
def settleHook (s : Server H M) (call : HookCall H) (result : HookResult M) : Server H M :=
  { s with pendingAuth := result.stash call s.pendingAuth }.callNative (result.resolution call)

/-- `close` (lines 546–562). -/
def close (s : Server H M) : Server H M :=
  if s.running then
    { s with running := false, sockets := ∅, pendingAuth := s.pendingAuth.clear }
  else s

variable [EmptyCollection M]

/-- The handlers that `#onFlush` passes to `demux` (lines 573–600). -/
def handle (s : Server H M) : HandlerCall H → Server H M
  | .onOpen hi lo authReq => s.onOpen hi lo authReq
  | .onMessage hi lo payload isBinary => s.onMessage hi lo payload isBinary
  | .onClose hi lo code reason => s.onClose hi lo code reason
  | .onAuthorize reqHi reqLo ip url headers => s.handleAuthorize ⟨reqHi, reqLo, ip, url, headers⟩

/-- One event. A socket that is closed makes no native call (`socket.ts`, lines 63–95), and a
    hook settles once. -/
def step (s : Server H M) : ServerEvent H M → Server H M
  | .handle call => s.handle call
  | .settle k result =>
    match s.hooks[k]? with
    | some call => { s with hooks := s.hooks.eraseIdx k }.settleHook call result
    | none => s
  | .use k op =>
    match s.objects[k]? with
    | some socket => if socket.closed then s else s.callNative (.socket socket.idHi socket.idLo op)
    | none => s
  | .close => s.close

/-! ## What an event does to the sockets -/

omit [EmptyCollection M] in
theorem callNative_of_running {s : Server H M} (h : s.running = true) (call : NativeCall) :
    s.callNative call = { s with native := s.native ++ [call] } := if_pos h

/-- The native calls on the sockets of a connection. -/
def callsOn (s : Server H M) (hi lo : UInt32) : List SocketOp :=
  s.native.filterMap fun
    | .socket idHi idLo op => if idHi = hi ∧ idLo = lo then some op else none
    | _ => none

/-- The sockets are as they were. -/
structure SameSockets (s t : Server H M) : Prop where
  nodeId : t.nodeId = s.nodeId
  running : t.running = s.running
  sockets : t.sockets = s.sockets
  objects : t.objects = s.objects
  callsOn : ∀ hi lo, t.callsOn hi lo = s.callsOn hi lo

/-- The event finds no socket to act on, or is about a request. -/
def Silent (s : Server H M) : ServerEvent H M → Prop
  | .handle (.onOpen _ _ _) | .close => s.running = false
  | .handle (.onMessage hi lo _ _) | .handle (.onClose hi lo _ _) =>
    s.sockets.get (encodeSocketId hi lo s.nodeId) = none
  | .handle (.onAuthorize _ _ _ _ _) | .settle _ _ => True
  | .use k _ => ∀ socket, s.objects[k]? = some socket → socket.closed = true ∨ s.running = false

/-- Socket `k`, which is held under `key`, hears of `e`. -/
def heard (s : Server H M) (key : String) (k : ℕ) (e : SocketEmit) : Server H M :=
  { s with
    sockets := if e.isClose then s.sockets.delete key else s.sockets
    objects := s.objects.modify k (·.hear e) }

omit [EmptyCollection M] in
theorem sameSockets_resolve (s : Server H M) (reqHi reqLo : UInt32) (accept : Bool)
    (userId : String) (hasUserId : Bool) (code : UInt32) :
    SameSockets s
      (s.callNative (.resolveAuthorize reqHi reqLo accept userId hasUserId code)) := by
  unfold callNative
  split_ifs
  · exact ⟨rfl, rfl, rfl, rfl, fun hi lo => by simp [callsOn]⟩
  · exact ⟨rfl, rfl, rfl, rfl, fun _ _ => rfl⟩

omit [EmptyCollection M] in
theorem sameSockets_settleHook (s : Server H M) (call : HookCall H) (result : HookResult M) :
    SameSockets s (s.settleHook call result) := by
  have hresolve : SameSockets { s with pendingAuth := result.stash call s.pendingAuth }
      (s.settleHook call result) := by
    cases result <;> exact sameSockets_resolve ..
  exact ⟨hresolve.nodeId, hresolve.running, hresolve.sockets, hresolve.objects, hresolve.callsOn⟩

/-- An event of a connection, by what the map holds under its id. -/
theorem handle_call (s : Server H M) (hi lo : UInt32) (e : SocketEmit) :
    s.handle (e.call hi lo) =
      match s.sockets.get (encodeSocketId hi lo s.nodeId) with
      | some k => s.heard (encodeSocketId hi lo s.nodeId) k e
      | none => s := by
  cases e <;> rfl

theorem use_of_object (s : Server H M) {k : ℕ} {socket : Socket M}
    (h : s.objects[k]? = some socket) (op : SocketOp) :
    s.step (.use k op) =
      if socket.closed then s else s.callNative (.socket socket.idHi socket.idLo op) := by
  unfold step
  dsimp only
  rw [h]

/-- The events that change something about the sockets. -/
theorem step_cases (s : Server H M) (ev : ServerEvent H M) :
    (s.Silent ev ∧ SameSockets s (s.step ev)) ∨
    (∃ hi lo authReq, ev = .handle (.onOpen hi lo authReq) ∧ s.running = true ∧
      s.step ev = s.opened hi lo authReq) ∨
    (∃ hi lo e k, ev = .handle (e.call hi lo) ∧
      s.sockets.get (encodeSocketId hi lo s.nodeId) = some k ∧
      s.step ev = s.heard (encodeSocketId hi lo s.nodeId) k e) ∨
    (∃ k op socket, ev = .use k op ∧ s.running = true ∧ s.objects[k]? = some socket ∧
      socket.closed = false ∧
      s.step ev = { s with native := s.native ++ [.socket socket.idHi socket.idLo op] }) ∨
    (ev = .close ∧ s.running = true ∧ s.step ev =
      { s with running := false, sockets := ∅, pendingAuth := s.pendingAuth.clear }) := by
  have hsame : SameSockets s s := ⟨rfl, rfl, rfl, rfl, fun _ _ => rfl⟩
  have hsilent : s.Silent ev → s.step ev = s → (s.Silent ev ∧ SameSockets s (s.step ev)) := by
    intro hsilent hstep
    rw [hstep]
    exact ⟨hsilent, hsame⟩
  cases ev with
  | handle call =>
    have hcall : ∀ hi lo (e : SocketEmit), call = e.call hi lo →
        (s.sockets.get (encodeSocketId hi lo s.nodeId) = none ∧ s.step (.handle call) = s) ∨
        ∃ k, s.sockets.get (encodeSocketId hi lo s.nodeId) = some k ∧
          s.step (.handle call) = s.heard (encodeSocketId hi lo s.nodeId) k e := by
      rintro hi lo e rfl
      have hhandle := s.handle_call hi lo e
      cases hget : s.sockets.get (encodeSocketId hi lo s.nodeId) with
      | none =>
        rw [hget] at hhandle
        exact .inl ⟨rfl, hhandle⟩
      | some k =>
        rw [hget] at hhandle
        exact .inr ⟨k, rfl, hhandle⟩
    cases call with
    | onOpen hi lo authReq =>
      cases hrunning : s.running with
      | true => exact .inr (.inl ⟨hi, lo, authReq, rfl, rfl, if_pos hrunning⟩)
      | false => exact .inl (hsilent hrunning (if_neg (by simp [hrunning])))
    | onMessage hi lo payload isBinary =>
      rcases hcall hi lo (.message payload isBinary) rfl with ⟨hget, hstep⟩ | ⟨k, hget, hstep⟩
      · exact .inl (hsilent hget hstep)
      · exact .inr (.inr (.inl ⟨hi, lo, _, k, rfl, hget, hstep⟩))
    | onClose hi lo code reason =>
      rcases hcall hi lo (.close code reason) rfl with ⟨hget, hstep⟩ | ⟨k, hget, hstep⟩
      · exact .inl (hsilent hget hstep)
      · exact .inr (.inr (.inl ⟨hi, lo, _, k, rfl, hget, hstep⟩))
    | onAuthorize reqHi reqLo ip url headers =>
      refine .inl ⟨trivial, ?_⟩
      show SameSockets s (s.handleAuthorize ⟨reqHi, reqLo, ip, url, headers⟩)
      unfold handleAuthorize
      split_ifs
      · exact ⟨rfl, rfl, rfl, rfl, fun _ _ => rfl⟩
      · exact sameSockets_resolve ..
      · exact hsame
  | settle k result =>
    refine .inl ⟨trivial, ?_⟩
    unfold step
    dsimp only
    split
    · next call _ =>
      obtain ⟨h₁, h₂, h₃, h₄, h₅⟩ :=
        sameSockets_settleHook { s with hooks := s.hooks.eraseIdx k } call result
      exact ⟨h₁, h₂, h₃, h₄, h₅⟩
    · exact hsame
  | use k op =>
    cases hget : s.objects[k]? with
    | none =>
      refine .inl (hsilent (fun socket hsocket => ?_) ?_)
      · cases hget.symm.trans hsocket
      · unfold step
        dsimp only
        rw [hget]
    | some socket =>
      have huse := s.use_of_object hget op
      cases hclosed : socket.closed with
      | true =>
        rw [if_pos hclosed] at huse
        refine .inl (hsilent (fun socket' hsocket => .inl ?_) huse)
        cases hget.symm.trans hsocket
        exact hclosed
      | false =>
        rw [if_neg (by simp [hclosed])] at huse
        cases hrunning : s.running with
        | true =>
          rw [callNative_of_running hrunning] at huse
          exact .inr (.inr (.inr (.inl ⟨k, op, socket, rfl, rfl, hget, hclosed, hrunning ▸ huse⟩)))
        | false =>
          rw [callNative, if_neg (by simp [hrunning])] at huse
          refine .inl ⟨fun _ _ => .inr hrunning, ?_⟩
          rw [huse]
          exact ⟨rfl, rfl, rfl, rfl, fun _ _ => rfl⟩
  | close =>
    cases hrunning : s.running with
    | true => exact .inr (.inr (.inr (.inr ⟨rfl, rfl, if_pos hrunning⟩)))
    | false => exact .inl (hsilent hrunning (if_neg (by simp [hrunning])))

/-- Every object goes by the id of its connection, and the map holds open sockets under their
    ids, and none after `io.close()`. -/
structure Indexed (s : Server H M) : Prop where
  ids : ∀ socket ∈ s.objects, socket.id = encodeSocketId socket.idHi socket.idLo s.nodeId
  sockets : ∀ key k, s.sockets.get key = some k →
    ∃ socket, s.objects[k]? = some socket ∧ socket.id = key ∧ socket.closed = false
  running : ∀ key k, s.sockets.get key = some k → s.running = true

omit [EmptyCollection M] in
theorem indexed_new (nodeId : Option NodeId) (hasHook : Bool) :
    (new nodeId hasHook : Server H M).Indexed := ⟨nofun, nofun, nofun⟩

theorem Indexed.opened {s : Server H M} (h : s.Indexed) (hrunning : s.running = true)
    (hi lo : UInt32) (authReq : Option (UInt32 × UInt32)) : (s.opened hi lo authReq).Indexed := by
  refine ⟨?_, ?_, fun _ _ _ => hrunning⟩
  · intro socket hmem
    rcases List.mem_append.mp hmem with hmem | hmem
    · exact h.ids socket hmem
    · rw [List.mem_singleton.mp hmem]
      rfl
  · intro key k hk
    replace hk : (s.sockets.set _ _).get key = some k := hk
    rw [InsertionMap.get_set] at hk
    split_ifs at hk with hkey
    · cases hk
      exact ⟨_, List.getElem?_concat_length, hkey.symm, rfl⟩
    · obtain ⟨socket, hget, hsocket⟩ := h.sockets key k hk
      exact ⟨socket, (List.getElem?_append_left (List.getElem?_eq_some_iff.mp hget).1).trans hget,
        hsocket⟩

omit [EmptyCollection M] in
/-- The objects after one of them heard of an event. -/
theorem getElem?_heard (s : Server H M) (key : String) (k j : ℕ) (e : SocketEmit) :
    (s.heard key k e).objects[j]? =
      s.objects[j]?.map fun socket => if k = j then socket.hear e else socket :=
  List.getElem?_modify ..

omit [EmptyCollection M] in
/-- The map after a socket heard of an event: a closed socket is not in it. -/
theorem get_heard (s : Server H M) (key key' : String) (k : ℕ) (e : SocketEmit) :
    (s.heard key k e).sockets.get key' =
      if e.isClose = true ∧ key' = key then none else s.sockets.get key' := by
  unfold heard
  dsimp only
  cases e.isClose with
  | true => simp [InsertionMap.get_delete]
  | false => simp

omit [EmptyCollection M] in
theorem Indexed.heard {s : Server H M} (h : s.Indexed) {key : String} {k : ℕ}
    (hget : s.sockets.get key = some k) (e : SocketEmit) : (s.heard key k e).Indexed := by
  refine ⟨?_, ?_, fun _ _ _ => h.running key k hget⟩
  · intro socket hmem
    obtain ⟨j, hj⟩ := List.mem_iff_getElem?.mp hmem
    rw [getElem?_heard] at hj
    obtain ⟨socket₀, hobject, rfl⟩ := Option.map_eq_some_iff.mp hj
    have hid := h.ids socket₀ (List.mem_of_getElem? hobject)
    split_ifs
    · rw [Socket.id_hear, Socket.idHi_hear, Socket.idLo_hear]
      exact hid
    · exact hid
  · intro key' j hj
    rw [get_heard] at hj
    split_ifs at hj with hdeleted
    obtain ⟨socket, hobject, hid, hclosed⟩ := h.sockets key' j hj
    refine ⟨_, by rw [getElem?_heard, hobject, Option.map_some], ?_⟩
    split_ifs with hkj
    · -- the object stands under one key only, so it is not closed now
      subst hkj
      obtain ⟨socket', hobject', hid', -⟩ := h.sockets key k hget
      cases hobject.symm.trans hobject'
      have hopen : e.isClose = false := by
        cases hclose : e.isClose with
        | true => exact absurd ⟨hclose, hid.symm.trans hid'⟩ hdeleted
        | false => rfl
      rw [Socket.id_hear, Socket.closed_hear, hopen]
      exact ⟨hid, hclosed⟩
    · exact ⟨hid, hclosed⟩

theorem indexed_step (s : Server H M) (ev : ServerEvent H M) (h : s.Indexed) :
    (s.step ev).Indexed := by
  rcases step_cases s ev with ⟨-, hsame⟩ | ⟨hi, lo, authReq, -, hrunning, hstep⟩ |
    ⟨hi, lo, e, k, -, hget, hstep⟩ | ⟨k, op, socket, -, -, -, -, hstep⟩ | ⟨-, -, hstep⟩
  · refine ⟨?_, ?_, ?_⟩
    · rw [hsame.objects, hsame.nodeId]
      exact h.ids
    · rw [hsame.objects, hsame.sockets]
      exact h.sockets
    · rw [hsame.sockets, hsame.running]
      exact h.running
  · rw [hstep]
    exact h.opened hrunning hi lo authReq
  · rw [hstep]
    exact h.heard hget e
  · rw [hstep]
    exact ⟨h.ids, h.sockets, h.running⟩
  · rw [hstep]
    exact ⟨h.ids, nofun, nofun⟩

end Server

/-! ## The life of a socket -/

/-- `dropped`: forgotten by `io.close()`, without a `close` event. -/
inductive Phase
  | live
  | closed
  | dropped
  deriving DecidableEq, Repr

/-- What can be observed of a socket: its phase, what it has emitted and the native calls
    that were made on it. -/
structure SocketLife where
  phase : Phase
  emitted : List SocketEmit
  calls : List SocketOp
  deriving DecidableEq, Repr

namespace SocketLife

variable {H M : Type}

/-- A socket that has just been constructed. -/
def new : SocketLife := ⟨.live, [], []⟩

/-- The socket hears of an event of its connection. -/
def hear (life : SocketLife) (e : SocketEmit) : SocketLife :=
  if life.phase = .live then
    { life with
      phase := if e.isClose then .closed else .live
      emitted := life.emitted ++ [e] }
  else life

/-- An event seen by socket `k`, of the connection `hi`, `lo`. -/
def step (hi lo : UInt32) (k : ℕ) (life : SocketLife) : ServerEvent H M → SocketLife
  | .handle (.onMessage hi' lo' payload isBinary) =>
    if hi' = hi ∧ lo' = lo then life.hear (.message payload isBinary) else life
  | .handle (.onClose hi' lo' code reason) =>
    if hi' = hi ∧ lo' = lo then life.hear (.close code reason) else life
  | .use j op =>
    if j = k ∧ life.phase = .live then { life with calls := life.calls ++ [op] } else life
  | .close => if life.phase = .live then { life with phase := .dropped } else life
  | _ => life

theorem step_call (hi lo hi' lo' : UInt32) (k : ℕ) (life : SocketLife) (e : SocketEmit) :
    life.step hi lo k (.handle (e.call hi' lo') : ServerEvent H M) =
      if hi' = hi ∧ lo' = lo then life.hear e else life := by
  cases e <;> rfl

end SocketLife

/-- The event opens the connection. -/
def ServerEvent.opens {H M : Type} (hi lo : UInt32) : ServerEvent H M → Bool
  | .handle (.onOpen hi' lo' _) => hi' = hi ∧ lo' = lo
  | _ => false

namespace Server

variable {H M : Type} {s : Server H M} {k : ℕ} {hi lo : UInt32} {l : SocketLife}

/-- The phase of an object. -/
def phase (s : Server H M) (socket : Socket M) : Phase :=
  if socket.closed then .closed else if s.running then .live else .dropped

theorem phase_eq_live_iff {socket : Socket M} :
    s.phase socket = .live ↔ socket.closed = false ∧ s.running = true := by
  unfold phase
  cases socket.closed <;> cases s.running <;> simp

/-- What can be observed of object `k`. -/
def life (s : Server H M) (k : ℕ) : Option SocketLife :=
  s.objects[k]?.map fun socket =>
    ⟨s.phase socket, socket.emitted, s.callsOn socket.idHi socket.idLo⟩

/-- Object `k` is the only one of its connection, and the map holds it while it is live. -/
structure Tracks (s : Server H M) (k : ℕ) (hi lo : UInt32) (l : SocketLife) : Prop where
  indexed : s.Indexed
  object : ∃ socket, s.objects[k]? = some socket ∧ socket.idHi = hi ∧ socket.idLo = lo ∧
    l = ⟨s.phase socket, socket.emitted, s.callsOn hi lo⟩
  sole : ∀ j socket, s.objects[j]? = some socket → socket.idHi = hi → socket.idLo = lo → j = k
  mapped : l.phase = .live → s.sockets.get (encodeSocketId hi lo s.nodeId) = some k

/-- The map holds the socket only while it is live. -/
theorem Tracks.live_of_get (h : s.Tracks k hi lo l)
    (hget : s.sockets.get (encodeSocketId hi lo s.nodeId) = some k) : l.phase = .live := by
  obtain ⟨socket, hobject, -, -, rfl⟩ := h.object
  obtain ⟨socket', hobject', -, hclosed⟩ := h.indexed.sockets _ k hget
  cases hobject.symm.trans hobject'
  exact phase_eq_live_iff.mpr ⟨hclosed, h.indexed.running _ k hget⟩

/-- Under the id of another connection the map holds another socket. -/
theorem Tracks.conn_of_get (h : s.Tracks k hi lo l) {hi' lo' : UInt32}
    (hget : s.sockets.get (encodeSocketId hi' lo' s.nodeId) = some k) : hi' = hi ∧ lo' = lo := by
  obtain ⟨socket, hobject, rfl, rfl, -⟩ := h.object
  obtain ⟨socket', hobject', hid, -⟩ := h.indexed.sockets _ k hget
  cases hobject.symm.trans hobject'
  have hids := h.indexed.ids socket (List.mem_of_getElem? hobject)
  exact (encodeSocketId_inj (hid.symm.trans hids)).2

/-- The life of a socket does not show an event that finds no socket. -/
theorem Tracks.step_of_silent {ev : ServerEvent H M} (h : s.Tracks k hi lo l)
    (hsilent : s.Silent ev) : l.step hi lo k ev = l := by
  obtain ⟨socket, hobject, -, -, hl⟩ := h.object
  have hlive : l.phase = .live → socket.closed = false ∧ s.running = true := by
    rw [hl]
    exact phase_eq_live_iff.mp
  have hcall : ∀ hi' lo' (e : SocketEmit), s.sockets.get (encodeSocketId hi' lo' s.nodeId) = none →
      (if hi' = hi ∧ lo' = lo then l.hear e else l) = l := by
    intro hi' lo' e hget
    split_ifs with hown
    · obtain ⟨rfl, rfl⟩ := hown
      refine if_neg fun hphase => ?_
      cases (h.mapped hphase).symm.trans hget
    · rfl
  cases ev with
  | handle call =>
    cases call with
    | onMessage hi' lo' payload isBinary => exact hcall hi' lo' _ hsilent
    | onClose hi' lo' code reason => exact hcall hi' lo' _ hsilent
    | _ => rfl
  | settle j result => rfl
  | use j op =>
    refine if_neg ?_
    rintro ⟨rfl, hphase⟩
    obtain ⟨hclosed, hrunning⟩ := hlive hphase
    rcases hsilent socket hobject with h | h
    · cases hclosed.symm.trans h
    · cases hrunning.symm.trans h
  | close =>
    refine if_neg fun hphase => ?_
    cases (hlive hphase).2.symm.trans hsilent

/-- A socket hears of an event of its connection, or another one of another connection. -/
theorem Tracks.heard (h : s.Tracks k hi lo l) {hi' lo' : UInt32} {j : ℕ}
    (hget : s.sockets.get (encodeSocketId hi' lo' s.nodeId) = some j) (e : SocketEmit) :
    (s.heard (encodeSocketId hi' lo' s.nodeId) j e).Tracks k hi lo
      (if hi' = hi ∧ lo' = lo then l.hear e else l) := by
  obtain ⟨socket, hobject, hhi, hlo, hl⟩ := h.object
  have hsole : ∀ i socket', (s.heard (encodeSocketId hi' lo' s.nodeId) j e).objects[i]? =
      some socket' → socket'.idHi = hi → socket'.idLo = lo → i = k := by
    intro i socket' hi' hhi' hlo'
    rw [getElem?_heard] at hi'
    obtain ⟨socket₀, hobject₀, rfl⟩ := Option.map_eq_some_iff.mp hi'
    refine h.sole i socket₀ hobject₀ ?_ ?_
    · rw [← hhi']
      split_ifs <;> simp
    · rw [← hlo']
      split_ifs <;> simp
  by_cases hjk : j = k
  · subst hjk
    obtain ⟨rfl, rfl⟩ := h.conn_of_get hget
    have hphase := h.live_of_get hget
    have hrunning : s.running = true := h.indexed.running _ j hget
    have hclosed : socket.closed = false := by
      rw [hl] at hphase
      exact (phase_eq_live_iff.mp hphase).1
    rw [if_pos ⟨rfl, rfl⟩, SocketLife.hear, if_pos hphase]
    refine ⟨h.indexed.heard hget e, ⟨socket.hear e, ?_, ?_, ?_, ?_⟩, hsole, ?_⟩
    · rw [getElem?_heard, hobject, Option.map_some, if_pos rfl]
    · rw [Socket.idHi_hear]
      exact hhi
    · rw [Socket.idLo_hear]
      exact hlo
    · rw [hl, Socket.emitted_hear]
      congr 1
      show _ = if (socket.hear e).closed then _ else if s.running then _ else _
      rw [Socket.closed_hear, hclosed, hrunning, Bool.or_false]
      rfl
    · intro hlive
      rw [get_heard, if_neg]
      · exact hget
      · rintro ⟨hclose, -⟩
        simp [hclose] at hlive
  · have hother : ¬(l.phase = .live ∧ hi' = hi ∧ lo' = lo) := by
      rintro ⟨hlive, rfl, rfl⟩
      exact hjk (Option.some.inj (hget.symm.trans (h.mapped hlive)))
    have hsame : (if hi' = hi ∧ lo' = lo then l.hear e else l) = l := by
      split_ifs with hown
      · exact if_neg fun hlive => hother ⟨hlive, hown⟩
      · rfl
    rw [hsame]
    refine ⟨h.indexed.heard hget e, ⟨socket, ?_, hhi, hlo, hl⟩, hsole, fun hlive => ?_⟩
    · rw [getElem?_heard, hobject, Option.map_some, if_neg hjk]
    · rw [get_heard, if_neg]
      · exact h.mapped hlive
      · rintro ⟨-, hkey⟩
        obtain ⟨-, rfl, rfl⟩ := encodeSocketId_inj hkey
        exact hother ⟨hlive, rfl, rfl⟩

/-- The application calls a method of socket `j`. -/
theorem Tracks.use (h : s.Tracks k hi lo l) {j : ℕ} {socket' : Socket M}
    (hrunning : s.running = true) (hget : s.objects[j]? = some socket')
    (hclosed : socket'.closed = false) (op : SocketOp) :
    Tracks { s with native := s.native ++ [.socket socket'.idHi socket'.idLo op] } k hi lo
      (if j = k ∧ l.phase = .live then { l with calls := l.calls ++ [op] } else l) := by
  obtain ⟨socket, hobject, hhi, hlo, hl⟩ := h.object
  have hiff : (j = k ∧ l.phase = .live) ↔ socket'.idHi = hi ∧ socket'.idLo = lo := by
    constructor
    · rintro ⟨rfl, -⟩
      cases hobject.symm.trans hget
      exact ⟨hhi, hlo⟩
    · rintro ⟨hhi', hlo'⟩
      cases h.sole j socket' hget hhi' hlo'
      cases hobject.symm.trans hget
      refine ⟨rfl, ?_⟩
      rw [hl]
      exact phase_eq_live_iff.mpr ⟨hclosed, hrunning⟩
  have hcalls : callsOn { s with native := s.native ++ [.socket socket'.idHi socket'.idLo op] }
      hi lo = s.callsOn hi lo ++ if socket'.idHi = hi ∧ socket'.idLo = lo then [op] else [] := by
    rw [callsOn, List.filterMap_append, callsOn]
    congr 1
    by_cases hown : socket'.idHi = hi ∧ socket'.idLo = lo <;> simp [hown]
  refine ⟨⟨h.indexed.ids, h.indexed.sockets, h.indexed.running⟩, ⟨socket, hobject, hhi, hlo, ?_⟩,
    h.sole, ?_⟩
  · rw [hcalls, hl]
    split_ifs with hown hown' hown'
    · rfl
    · exact absurd (hiff.mp (hl ▸ hown)) hown'
    · exact absurd (hl ▸ hiff.mpr hown') hown
    · rw [List.append_nil]
      rfl
  · intro hlive
    refine h.mapped ?_
    split_ifs at hlive
    · exact hlive
    · exact hlive

variable [EmptyCollection M]

/-- Another connection opens. -/
theorem Tracks.opened (h : s.Tracks k hi lo l) (hrunning : s.running = true) {hi' lo' : UInt32}
    (hne : ¬(hi' = hi ∧ lo' = lo)) (authReq : Option (UInt32 × UInt32)) :
    (s.opened hi' lo' authReq).Tracks k hi lo l := by
  obtain ⟨socket, hobject, hhi, hlo, hl⟩ := h.object
  refine ⟨h.indexed.opened hrunning hi' lo' authReq, ⟨socket, ?_, hhi, hlo, hl⟩, ?_, ?_⟩
  · exact (List.getElem?_append_left (List.getElem?_eq_some_iff.mp hobject).1).trans hobject
  · intro i socket' hi hhi' hlo'
    replace hi : (s.objects ++ [s.socketFor hi' lo' authReq])[i]? = some socket' := hi
    rcases Nat.lt_or_ge i s.objects.length with hlt | hge
    · rw [List.getElem?_append_left hlt] at hi
      exact h.sole i socket' hi hhi' hlo'
    · rw [List.getElem?_append_right hge] at hi
      cases List.mem_singleton.mp (List.mem_of_getElem? hi)
      exact absurd ⟨hhi', hlo'⟩ hne
  · intro hlive
    show (s.sockets.set _ _).get _ = some k
    rw [InsertionMap.get_set, if_neg fun heq => hne ?_]
    · exact h.mapped hlive
    · obtain ⟨-, h₁, h₂⟩ := encodeSocketId_inj heq
      exact ⟨h₁.symm, h₂.symm⟩

theorem tracks_step {ev : ServerEvent H M} (h : s.Tracks k hi lo l)
    (hopens : ev.opens hi lo = false) : (s.step ev).Tracks k hi lo (l.step hi lo k ev) := by
  have hindexed := indexed_step s ev h.indexed
  obtain ⟨socket, hobject, hhi, hlo, hl⟩ := h.object
  rcases step_cases s ev with ⟨hsilent, hsame⟩ | ⟨hi', lo', authReq, rfl, hrunning, hstep⟩ |
    ⟨hi', lo', e, j, rfl, hget, hstep⟩ | ⟨j, op, socket', rfl, hrunning, hget, hclosed, hstep⟩ |
    ⟨rfl, hrunning, hstep⟩
  · rw [h.step_of_silent hsilent]
    refine ⟨hindexed, ⟨socket, by rw [hsame.objects]; exact hobject, hhi, hlo, ?_⟩, ?_, ?_⟩
    · rw [hl, hsame.callsOn, phase, phase, hsame.running]
    · rw [hsame.objects]
      exact h.sole
    · rw [hsame.sockets, hsame.nodeId]
      exact h.mapped
  · rw [hstep]
    exact h.opened hrunning (by simpa [ServerEvent.opens] using hopens) authReq
  · rw [hstep, SocketLife.step_call]
    exact h.heard hget e
  · rw [hstep]
    exact h.use hrunning hget hclosed op
  · have hlife : l.step hi lo k (.close : ServerEvent H M) =
        ⟨if socket.closed then .closed else .dropped, l.emitted, l.calls⟩ := by
      unfold SocketLife.step
      rw [hl]
      dsimp only
      unfold phase
      rw [hrunning]
      cases socket.closed <;> rfl
    rw [hlife]
    rw [hstep] at hindexed ⊢
    refine ⟨hindexed, ⟨socket, hobject, hhi, hlo, ?_⟩, h.sole, fun hlive => ?_⟩
    · rw [hl]
      rfl
    · revert hlive
      cases socket.closed <;> simp

/-- The connection has no socket, and there was no native call on one. -/
structure Unopened (s : Server H M) (hi lo : UInt32) : Prop where
  indexed : s.Indexed
  objects : ∀ socket ∈ s.objects, ¬(socket.idHi = hi ∧ socket.idLo = lo)
  calls : s.callsOn hi lo = []

theorem unopened_step {ev : ServerEvent H M} (h : s.Unopened hi lo)
    (hopens : ev.opens hi lo = false) : (s.step ev).Unopened hi lo := by
  have hindexed := indexed_step s ev h.indexed
  rcases step_cases s ev with ⟨-, hsame⟩ | ⟨hi', lo', authReq, rfl, -, hstep⟩ |
    ⟨hi', lo', e, j, rfl, -, hstep⟩ | ⟨j, op, socket', rfl, -, hget, -, hstep⟩ |
    ⟨rfl, -, hstep⟩
  · exact ⟨hindexed, hsame.objects ▸ h.objects, (hsame.callsOn hi lo).trans h.calls⟩
  · rw [hstep] at hindexed ⊢
    refine ⟨hindexed, ?_, h.calls⟩
    intro socket hmem
    rcases List.mem_append.mp hmem with hmem | hmem
    · exact h.objects socket hmem
    · rw [List.mem_singleton.mp hmem]
      show ¬(hi' = hi ∧ lo' = lo)
      simpa [ServerEvent.opens] using hopens
  · rw [hstep] at hindexed ⊢
    refine ⟨hindexed, ?_, h.calls⟩
    intro socket hmem
    obtain ⟨i, hi⟩ := List.mem_iff_getElem?.mp hmem
    rw [getElem?_heard] at hi
    obtain ⟨socket₀, hobject₀, rfl⟩ := Option.map_eq_some_iff.mp hi
    have hold := h.objects socket₀ (List.mem_of_getElem? hobject₀)
    split_ifs
    · rw [Socket.idHi_hear, Socket.idLo_hear]
      exact hold
    · exact hold
  · rw [hstep] at hindexed ⊢
    refine ⟨hindexed, h.objects, ?_⟩
    have hother := h.objects socket' (List.mem_of_getElem? hget)
    have hcalls := h.calls
    unfold callsOn at hcalls ⊢
    rw [List.filterMap_append, hcalls]
    simp [hother]
  · rw [hstep] at hindexed ⊢
    exact ⟨hindexed, h.objects, h.calls⟩

theorem Unopened.tracks (h : s.Unopened hi lo) (hrunning : s.running = true)
    (authReq : Option (UInt32 × UInt32)) :
    (s.opened hi lo authReq).Tracks s.objects.length hi lo .new := by
  refine ⟨h.indexed.opened hrunning hi lo authReq,
    ⟨s.socketFor hi lo authReq, List.getElem?_concat_length, rfl, rfl, ?_⟩, ?_, fun _ => ?_⟩
  · have hphase : (s.opened hi lo authReq).phase (s.socketFor hi lo authReq) = .live :=
      phase_eq_live_iff.mpr ⟨rfl, hrunning⟩
    have hcalls : (s.opened hi lo authReq).callsOn hi lo = [] := h.calls
    rw [hphase, hcalls]
    rfl
  · intro i socket hi hhi hlo
    replace hi : (s.objects ++ [s.socketFor _ _ authReq])[i]? = some socket := hi
    rcases Nat.lt_or_ge i s.objects.length with hlt | hge
    · rw [List.getElem?_append_left hlt] at hi
      exact absurd ⟨hhi, hlo⟩ (h.objects socket (List.mem_of_getElem? hi))
    · rw [List.getElem?_append_right hge] at hi
      have := (List.getElem?_eq_some_iff.mp hi).1
      rw [List.length_singleton] at this
      omega
  · show (s.sockets.set _ _).get _ = _
    rw [InsertionMap.get_set]
    exact if_pos rfl

theorem unopened_run (nodeId : Option NodeId) (hasHook : Bool) {evs : List (ServerEvent H M)}
    (hopens : ∀ ev ∈ evs, ev.opens hi lo = false) :
    (run step (new nodeId hasHook) evs).Unopened hi lo :=
  run_invariant_of_mem (I := fun s => Unopened s hi lo)
    (fun ev hmem _ h => unopened_step h (hopens ev hmem)) ⟨indexed_new nodeId hasHook, nofun, rfl⟩

/-- The object of a connection that is opened once, before `io.close()`. -/
theorem tracks_run (nodeId : Option NodeId) (hasHook : Bool)
    {before after : List (ServerEvent H M)} (authReq : Option (UInt32 × UInt32))
    (hopens : ∀ ev ∈ before ++ after, ev.opens hi lo = false)
    (hrunning : (run step (new nodeId hasHook) before).running = true) :
    (run step (new nodeId hasHook) (before ++ .handle (.onOpen hi lo authReq) :: after)).Tracks
      (run step (new nodeId hasHook) before).objects.length hi lo
      (run (SocketLife.step hi lo (run step (new nodeId hasHook) before).objects.length)
        .new after) := by
  have hunopened : (run step (new nodeId hasHook) before).Unopened hi lo :=
    unopened_run nodeId hasHook fun ev hmem => hopens ev (List.mem_append_left _ hmem)
  rw [run_append, run_cons]
  generalize run step (new nodeId hasHook) before = s at *
  have hstep : s.step (.handle (.onOpen hi lo authReq)) = s.opened hi lo authReq := if_pos hrunning
  rw [hstep]
  exact run_simulation (R := fun s l => Tracks s _ hi lo l)
    (fun ev hmem _ _ h => tracks_step h (hopens ev (List.mem_append_right _ hmem)))
    (hunopened.tracks hrunning authReq)

/-- Take a run of the server in which a connection is opened once, before `io.close()`. The
    object constructed for it has, at the end of the run, the phase, the emitted events and the
    native calls that its own events account for: it emits the messages of the connection in
    order and then at most one `close`, and calls on it reach the native layer until then. -/
theorem socket_life (nodeId : Option NodeId) (hasHook : Bool)
    (before after : List (ServerEvent H M)) (hi lo : UInt32) (authReq : Option (UInt32 × UInt32))
    (hopens : ∀ ev ∈ before ++ after, ev.opens hi lo = false)
    (hrunning : (run step (new nodeId hasHook) before).running = true) :
    (run step (new nodeId hasHook) (before ++ .handle (.onOpen hi lo authReq) :: after)).life
        (run step (new nodeId hasHook) before).objects.length =
      some (run (SocketLife.step hi lo (run step (new nodeId hasHook) before).objects.length)
        .new after) := by
  obtain ⟨socket, hobject, rfl, rfl, hl⟩ :=
    (tracks_run nodeId hasHook authReq hopens hrunning).object
  rw [life, hobject, Option.map_some, hl]

/-- A socket that joins a room, gets a message and is closed by its client. -/
def visit : List (ServerEvent Unit (List String)) :=
  [.use 0 (.join "lobby"), .handle (.onMessage 0 7 [104, 105] false),
    .handle (.onMessage 0 8 [1] true), .handle (.onClose 0 7 1000 ""), .use 0 (.sendText "bye"),
    .handle (.onMessage 0 7 [1] true)]

theorem visit_life :
    (run step (new none false) ([] ++ .handle (.onOpen 0 7 none) :: visit)).life 0 =
      some ⟨.closed, [.message [104, 105] false, .close 1000 ""], [.join "lobby"]⟩ :=
  socket_life none false [] visit 0 7 none (by decide) rfl

end Server

end BeamSocket.Sdk
