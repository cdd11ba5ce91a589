import BeamSocket.Core.RequestIds
import BeamSocket.Sdk.Server

/-!
# Whose socket it is

The authorize round trip from one end to the other: the `Authorizer` of the engine, the events
that cross the bridge, the `authorize` hooks of the application and the server object that
opens the sockets. Each side takes its own steps, in any order. An event of the engine reaches
the server object at most once; how long it takes, and whether it is overtaken, is left open.
Only the server object resolves requests.

* `Upgrades.socket_identity`: a socket carries the identity that the hook returned for the
  request of its own connection.
-/

namespace BeamSocket.Sdk

open BeamSocket.Lib BeamSocket.Core

/-! ## Keys of requests -/

theorem reqKey_inj {hi lo hi' lo' : UInt32} (h : reqKey hi lo = reqKey hi' lo') :
    hi = hi' ∧ lo = lo' := by
  have hnot : ∀ n, ':' ∉ numeral 10 n := fun n =>
    notMem_numeral (by decide) (by decide) n (by decide)
  have hlists : numeral 10 hi.toNat ++ ':' :: numeral 10 lo.toNat =
      numeral 10 hi'.toNat ++ ':' :: numeral 10 lo'.toNat := String.ofList_injective h
  obtain ⟨hhi, -, hlo⟩ := (List.append_cons_inj_of_notMem (hnot _) (hnot _)).mp hlists
  exact ⟨UInt32.toNat.inj (numeral_inj (by decide) (by decide) hhi),
    UInt32.toNat.inj (numeral_inj (by decide) (by decide) hlo)⟩

/-- The key of a request. -/
def keyOf (requestId : UInt64) : String := reqKey (idHi requestId) (idLo requestId)

theorem keyOf_inj {r r' : UInt64} (h : keyOf r = keyOf r') : r = r' := by
  obtain ⟨hhi, hlo⟩ := reqKey_inj h
  rw [← connId_halves r, hhi, hlo, connId_halves]

/-! ## The system -/

section

variable {H M : Type} (display : IpAddr → String) (collect : List (String × String) → H)

/-- The hook is called with this for a request. -/
def hookCall (requestId : UInt64) (request : UpgradeRequest) : HookCall H :=
  { reqHi := idHi requestId
    reqLo := idLo requestId
    ip := display request.clientIp
    url := request.url
    headers := collect request.headers }

/-- The request that a hook was called for. -/
def HookCall.requestId (call : HookCall H) : UInt64 := connId call.reqHi call.reqLo

@[simp] theorem requestId_hookCall (requestId : UInt64) (request : UpgradeRequest) :
    (hookCall display collect requestId request).requestId = requestId := connId_halves requestId

end

/-- The engine's side, the server object, and what has passed between them. -/
structure Upgrades (H M : Type) where
  numbering : Numbering
  /-- The steps of the authorizer, oldest first. -/
  history : List AuthorizeEvent
  server : Server H M
  /-- Of the events that the authorizer emitted, those that have reached the server object. -/
  delivered : List ℕ
  /-- The calls of `authorize` whose connection has opened. -/
  connected : List ℕ
  /-- How the hooks settled, newest first. -/
  settled : List (HookCall H × HookResult M)
  /-- What was taken out of the correlation store, newest first. -/
  takes : List (String × Option (PendingAuth M))

/-- A step of the authorizer, or of the server object, or an event on its way between them. -/
inductive UpgradeEvent (H M : Type)
  /-- The authorizer takes a step. -/
  | engine (e : AuthorizeEvent)
  /-- The server object gets event `k` of the authorizer. -/
  | deliver (k : ℕ)
  | settle (k : ℕ) (result : HookResult M)
  /-- The connection of call `i` opens as `id`, and the server object gets the event. -/
  | connect (i : ℕ) (id : ConnectionId)
  /-- Something else happens to the server object. -/
  | other (ev : ServerEvent H M)
  deriving DecidableEq, Repr

/-- The events that do not open a connection, call a hook or settle one. -/
def ServerEvent.isOther {H M : Type} : ServerEvent H M → Bool
  | .handle (.onMessage _ _ _ _) | .handle (.onClose _ _ _ _) | .use _ _ | .close => true
  | _ => false

/-- `resolve` is called. -/
def isResolve : AuthorizeEvent → Bool
  | .resolve _ _ => true
  | _ => false

namespace Upgrades

variable {H M : Type} (display : IpAddr → String) (collect : List (String × String) → H)

/-- Both sides before the first upgrade; a hook is registered. -/
def start (maxPending : ℕ) (nodeId : Option Mesh.NodeId) : Upgrades H M :=
  { numbering := .new maxPending, history := [], server := .new nodeId true, delivered := [],
    connected := [], settled := [], takes := [] }

/-- One step of the authorizer, with its entry in the log. -/
def engineStep (w : Upgrades H M) (e : AuthorizeEvent) : Upgrades H M :=
  { w with numbering := w.numbering.step display e, history := w.history ++ [e] }

/-- The request that call `i` was accepted under, once it has returned. -/
def accepted (a : Authorizer) (i : ℕ) : Option UInt64 :=
  a.returned.findSome? fun
    | (j, .accept _ requestId) => if j = i then some requestId else none
    | _ => none

variable [EmptyCollection M]

/-- The `resolve`s among the native calls that an event makes. -/
def resolutions (s : Server H M) (ev : ServerEvent H M) : List AuthorizeEvent :=
  ((s.step ev).native.drop s.native.length).filterMap fun call =>
    call.resolves.map fun r => .resolve r.1 r.2

/-- The server object handles an event, and the engine its native calls. -/
def act (w : Upgrades H M) (ev : ServerEvent H M) : Upgrades H M :=
  (resolutions w.server ev).foldl (engineStep display) { w with server := w.server.step ev }

/-- One event. What the authorizer emits reaches the server object once, and the server object's
    `resolve` reaches the authorizer at once. -/
def step (w : Upgrades H M) : UpgradeEvent H M → Upgrades H M
  | .engine e => if isResolve e then w else w.engineStep display e
  | .deliver k =>
    match w.numbering.authorizer.emitted[k]? with
    | some ev =>
      if w.delivered.contains k then w
      else { w with delivered := k :: w.delivered }.act display (.handle (called collect ev))
    | none => w
  | .settle k result =>
    match w.server.hooks[k]? with
    | some call => { w with settled := (call, result) :: w.settled }.act display (.settle k result)
    | none => w
  | .connect i id =>
    match accepted w.numbering.authorizer i with
    | some requestId =>
      if w.connected.contains i then w
      else
        { w with
          connected := i :: w.connected
          takes := (keyOf requestId, (w.server.pendingAuth.take (keyOf requestId)).1) :: w.takes
        }.act display (.handle (called collect (.connectionOpened id (some requestId))))
    | none => w
  | .other ev => if ev.isOther then w.act display ev else w

/-! ## What the server object does with an event -/

omit [EmptyCollection M] in
/-- Each result resolves the request of its hook; an accept with the user that it names. -/
theorem resolves_resolution (call : HookCall H) (result : HookResult M) :
    ∃ outcome, (result.resolution call).resolves = some (call.requestId, outcome) ∧
      ∀ userId, outcome = .accept userId → ∃ metadata, result = .accept userId metadata := by
  cases result with
  | accept userId metadata =>
    refine ⟨.accept userId, ?_, ?_⟩
    · cases userId <;> rfl
    · rintro _ ⟨⟩
      exact ⟨metadata, rfl⟩
  | reject code => exact ⟨_, rfl, nofun⟩
  | throws => exact ⟨_, rfl, nofun⟩

theorem resolutions_of_native {s t : Server H M} {ev : ServerEvent H M} (hstep : s.step ev = t)
    {calls : List NativeCall} (h : t.native = s.native ++ calls) :
    resolutions s ev = calls.filterMap fun call => call.resolves.map fun r => .resolve r.1 r.2 := by
  rw [resolutions, hstep, h, List.drop_left]

/-- A hook settles while the engine is running. -/
theorem step_settle {s : Server H M} {k : ℕ} {call : HookCall H} (hrunning : s.running = true)
    (hk : s.hooks[k]? = some call) (result : HookResult M) :
    s.step (.settle k result) =
      { s with
        hooks := s.hooks.eraseIdx k
        pendingAuth := result.stash call s.pendingAuth
        native := s.native ++ [result.resolution call] } := by
  unfold Server.step
  dsimp only
  rw [hk]
  exact if_pos hrunning

theorem resolutions_of_eq {s t : Server H M} {ev : ServerEvent H M} (hstep : s.step ev = t)
    (h : t.native = s.native) : resolutions s ev = [] := by
  rw [resolutions, hstep, h, List.drop_length]
  rfl

/-- The server object is asked about a request. -/
theorem handle_authorizeEvent {s : Server H M} (hrunning : s.running = true)
    (hhook : s.hasHook = true) (requestId : UInt64) (request : UpgradeRequest) :
    s.step (.handle (called collect (authorizeEvent display requestId request))) =
      { s with hooks := s.hooks ++ [hookCall display collect requestId request] } := by
  show s.handleAuthorize _ = _
  rw [Server.handleAuthorize, if_pos hrunning, if_pos hhook]
  rfl

/-- The server object opens a connection that was accepted under `requestId`. -/
theorem handle_connectionOpened {s : Server H M} (hrunning : s.running = true) (id : ConnectionId)
    (requestId : UInt64) :
    s.step (.handle (called collect (.connectionOpened id (some requestId)))) =
      s.opened (idHi id) (idLo id) (some (idHi requestId, idLo requestId)) := if_pos hrunning

/-- The rest leaves requests alone. -/
structure Leaves (s t : Server H M) : Prop where
  hasHook : t.hasHook = s.hasHook
  hooks : t.hooks = s.hooks
  pendingAuth : t.running = true → t.pendingAuth = s.pendingAuth
  running : t.running = true → s.running = true

theorem step_of_isOther {s : Server H M} {ev : ServerEvent H M} (hev : ev.isOther = true) :
    Leaves s (s.step ev) ∧ resolutions s ev = [] := by
  have hself : Leaves s s := ⟨rfl, rfl, fun _ => rfl, id⟩
  have hsame : s.step ev = s → Leaves s (s.step ev) ∧ resolutions s ev = [] := by
    intro hstep
    refine ⟨?_, resolutions_of_eq hstep rfl⟩
    rw [hstep]
    exact hself
  have hcall : ∀ hi lo (e : SocketEmit), ev = .handle (e.call hi lo) →
      Leaves s (s.step ev) ∧ resolutions s ev = [] := by
    rintro hi lo e rfl
    have hhandle := s.handle_call hi lo e
    cases hget : s.sockets.get (encodeSocketId hi lo s.nodeId) with
    | none =>
      rw [hget] at hhandle
      exact hsame hhandle
    | some k =>
      rw [hget] at hhandle
      refine ⟨?_, resolutions_of_eq hhandle rfl⟩
      show Leaves s (s.handle (e.call hi lo))
      rw [hhandle]
      exact ⟨rfl, rfl, fun _ => rfl, id⟩
  cases ev with
  | handle call =>
    cases call with
    | onMessage hi lo payload isBinary => exact hcall hi lo (.message payload isBinary) rfl
    | onClose hi lo code reason => exact hcall hi lo (.close code reason) rfl
    | onOpen hi lo authReq => cases hev
    | onAuthorize reqHi reqLo ip url headers => cases hev
  | settle k result => cases hev
  | use k op =>
    cases hget : s.objects[k]? with
    | none =>
      refine hsame ?_
      unfold Server.step
      dsimp only
      rw [hget]
    | some socket =>
      have huse := s.use_of_object hget op
      split_ifs at huse
      · exact hsame huse
      · unfold Server.callNative at huse
        split_ifs at huse with hrunning
        · refine ⟨?_, ?_⟩
          · rw [huse]
            exact ⟨rfl, rfl, fun _ => rfl, fun _ => hrunning⟩
          · rw [resolutions_of_native huse rfl]
            rfl
        · refine ⟨?_, resolutions_of_eq huse rfl⟩
          rw [huse]
          exact ⟨rfl, rfl, fun _ => rfl, id⟩
  | close =>
    cases hrunning : s.running with
    | true =>
      have hclose : s.step .close =
          { s with running := false, sockets := ∅, pendingAuth := s.pendingAuth.clear } :=
        if_pos hrunning
      refine ⟨?_, resolutions_of_eq hclose rfl⟩
      rw [hclose]
      exact ⟨rfl, rfl, nofun, nofun⟩
    | false => exact hsame (if_neg (by simp [hrunning]))

/-- After `io.close()` the engine hears nothing more. -/
theorem step_of_stopped {s : Server H M} (h : s.running = false) (ev : ServerEvent H M) :
    (s.step ev).running = false ∧ resolutions s ev = [] := by
  have hnot : ¬s.running = true := by simp [h]
  have hcallNative : ∀ (t : Server H M) call, t.running = false → t.native = s.native →
      (t.callNative call).running = false ∧ (t.callNative call).native = s.native := by
    intro t call ht hnative
    rw [Server.callNative, if_neg (by simp [ht])]
    exact ⟨ht, hnative⟩
  suffices hstep : (s.step ev).running = false ∧ (s.step ev).native = s.native from
    ⟨hstep.1, resolutions_of_eq rfl hstep.2⟩
  cases ev with
  | handle call =>
    cases call with
    | onOpen hi lo authReq =>
      rw [show s.step (.handle (.onOpen hi lo authReq)) = s from if_neg hnot]
      exact ⟨h, rfl⟩
    | onMessage hi lo payload isBinary =>
      show (s.onMessage hi lo payload isBinary).running = false ∧
        (s.onMessage hi lo payload isBinary).native = s.native
      unfold Server.onMessage
      split <;> exact ⟨h, rfl⟩
    | onClose hi lo code reason =>
      show (s.onClose hi lo code reason).running = false ∧
        (s.onClose hi lo code reason).native = s.native
      unfold Server.onClose
      dsimp only
      split <;> exact ⟨h, rfl⟩
    | onAuthorize reqHi reqLo ip url headers =>
      rw [show s.step (.handle (.onAuthorize reqHi reqLo ip url headers)) = s from if_neg hnot]
      exact ⟨h, rfl⟩
  | settle k result =>
    unfold Server.step
    dsimp only
    split
    · exact hcallNative _ _ h rfl
    · exact ⟨h, rfl⟩
  | use k op =>
    unfold Server.step
    dsimp only
    split
    · split_ifs
      · exact ⟨h, rfl⟩
      · exact hcallNative _ _ h rfl
    · exact ⟨h, rfl⟩
  | close =>
    rw [show s.step .close = s from if_neg hnot]
    exact ⟨h, rfl⟩

/-! ## The two ends agree -/

/-- The entries that the accepts of the hooks have put in the store. -/
def sets (settled : List (HookCall H × HookResult M)) : List (String × PendingAuth M) :=
  settled.filterMap fun
    | (call, .accept userId metadata) => some (reqKey call.reqHi call.reqLo, ⟨userId, metadata⟩)
    | _ => none

/-- The hooks that were called, settled or not. -/
def asked (w : Upgrades H M) : List (HookCall H) := w.server.hooks ++ w.settled.map Prod.fst

/-- A hook is called once for each request that was delivered, with the request; the engine is
    told of an accept only if the hook of the request accepted; and the correlation store has
    what the hooks returned, less what connections have taken that were accepted. -/
structure Linked (w : Upgrades H M) : Prop where
  hasHook : w.server.hasHook = true
  delivered : ∀ call ∈ w.asked, ∃ k ∈ w.delivered, ∃ requestId request,
    w.numbering.authorizer.emitted[k]? = some (authorizeEvent display requestId request) ∧
    call = hookCall display collect requestId request
  distinct : (w.asked.map HookCall.requestId).Nodup
  resolved : ∀ requestId userId, .resolve requestId (.accept userId) ∈ w.history →
    ∃ call metadata, (call, .accept userId metadata) ∈ w.settled ∧ call.requestId = requestId
  fifo : MetaLog.Fifo ⟨w.server.pendingAuth, sets w.settled, w.takes⟩
  cap : w.server.pendingAuth.cap = pendingAuthCap
  taken : ∀ key ∈ w.takes.map Prod.fst, ∃ i ∈ w.connected, ∃ userId requestId,
    (i, .accept userId requestId) ∈ w.numbering.authorizer.returned ∧ key = keyOf requestId

/-- The state after a run, until `io.close()`. -/
structure Sound (maxPending : ℕ) (w : Upgrades H M) : Prop where
  numbered : w.numbering.Numbered display
  authorizer : w.numbering.authorizer = run (Authorizer.step display) (.new maxPending) w.history
  linked : w.server.running = true → w.Linked display collect

variable {display} {collect} {maxPending : ℕ} {w : Upgrades H M}

omit [EmptyCollection M] in
theorem sound_start (nodeId : Option Mesh.NodeId) :
    (start maxPending nodeId : Upgrades H M).Sound display collect maxPending where
  numbered := Numbering.numbered_new maxPending
  authorizer := rfl
  linked _ :=
    { hasHook := rfl
      delivered := nofun
      distinct := List.nodup_nil
      resolved := nofun
      fifo := MetaLog.fifo_new pendingAuthCap
      cap := rfl
      taken := nofun }

omit [EmptyCollection M] in
/-- A step of the authorizer; a `resolve` only if it passes on what a hook returned. -/
theorem Sound.engine (h : w.Sound display collect maxPending) {e : AuthorizeEvent}
    (hresolve : w.server.running = true → ∀ requestId userId,
      e = .resolve requestId (.accept userId) →
      ∃ call metadata, (call, .accept userId metadata) ∈ w.settled ∧ call.requestId = requestId)
    (hlt : w.numbering.issued.length + 2 < 2 ^ 64) :
    (w.engineStep display e).Sound display collect maxPending where
  numbered := by
    have hsound := Authorizer.sound_run display maxPending w.history
    rw [← h.authorizer] at hsound
    exact Numbering.numbered_step h.numbered hsound hlt
  authorizer := by
    show w.numbering.authorizer.step display e =
      run (Authorizer.step display) (.new maxPending) (w.history ++ [e])
    rw [h.authorizer, run_append]
    rfl
  linked hrunning := by
    have hl := h.linked hrunning
    refine { hl with delivered := ?_, resolved := ?_, taken := ?_ }
    · intro call hcall
      obtain ⟨k, hk, requestId, request, hemitted, heq⟩ := hl.delivered call hcall
      exact ⟨k, hk, requestId, request, Authorizer.getElem?_emitted_step display hemitted e, heq⟩
    · intro requestId userId hmem
      rcases List.mem_append.mp hmem with hold | hnew
      · exact hl.resolved requestId userId hold
      · exact hresolve hrunning requestId userId (List.mem_singleton.mp hnew).symm
    · intro key hkey
      obtain ⟨i, hi, userId, requestId, hmem, heq⟩ := hl.taken key hkey
      exact ⟨i, hi, userId, requestId, Authorizer.mem_returned_of_mem display hmem e, heq⟩

/-- The server object handles an event without a native call that resolves. -/
theorem act_of_nil {ev : ServerEvent H M} (h : resolutions w.server ev = []) :
    w.act display ev = { w with server := w.server.step ev } := by
  rw [act, h]
  rfl

theorem sound_act_of_stopped (hnumbered : w.numbering.Numbered display)
    (hauthorizer : w.numbering.authorizer =
      run (Authorizer.step display) (.new maxPending) w.history)
    (hstopped : w.server.running = false) (ev : ServerEvent H M) :
    (w.act display ev).Sound display collect maxPending := by
  obtain ⟨hrunning, hnil⟩ := step_of_stopped hstopped ev
  rw [act_of_nil hnil]
  refine ⟨hnumbered, hauthorizer, fun hrunning' => ?_⟩
  cases hrunning.symm.trans hrunning'

theorem Sound.deliver (h : w.Sound display collect maxPending) {k : ℕ} {ev : EngineEvent}
    (hk : w.numbering.authorizer.emitted[k]? = some ev) (hnew : k ∉ w.delivered) :
    ({ w with delivered := k :: w.delivered }.act display (.handle (called collect ev))).Sound
      display collect maxPending := by
  obtain ⟨requestId, i, request, rfl, -, -⟩ := h.numbered.emitted ev (List.mem_of_getElem? hk)
  cases hrunning : w.server.running with
  | false =>
    exact sound_act_of_stopped (w := { w with delivered := k :: w.delivered })
      h.numbered h.authorizer hrunning _
  | true =>
    have hl := h.linked hrunning
    have hstep := handle_authorizeEvent display collect hrunning hl.hasHook requestId request
    rw [act_of_nil (w := { w with delivered := k :: w.delivered }) (resolutions_of_eq hstep rfl)]
    refine ⟨h.numbered, h.authorizer, fun _ => ?_⟩
    have hasked : asked { w with
          delivered := k :: w.delivered
          server := w.server.step
            (.handle (called collect (authorizeEvent display requestId request))) } =
        w.server.hooks ++ [hookCall display collect requestId request] ++
          w.settled.map Prod.fst := by
      unfold asked
      dsimp only
      rw [hstep]
    have hperm : (w.server.hooks ++ [hookCall display collect requestId request] ++
        w.settled.map Prod.fst).Perm (hookCall display collect requestId request :: w.asked) := by
      rw [List.append_assoc, List.singleton_append]
      exact List.perm_middle
    refine ⟨by rw [hstep]; exact hl.hasHook, ?_, ?_, hl.resolved, ?_, ?_, hl.taken⟩
    · rw [hasked]
      intro call hcall
      rcases List.mem_cons.mp (hperm.subset hcall) with rfl | hold
      · exact ⟨k, List.mem_cons_self, requestId, request, hk, rfl⟩
      · obtain ⟨j, hj, rest⟩ := hl.delivered call hold
        exact ⟨j, List.mem_cons_of_mem _ hj, rest⟩
    · rw [hasked, (hperm.map _).nodup_iff, List.map_cons, List.nodup_cons, requestId_hookCall]
      refine ⟨fun hmem => ?_, hl.distinct⟩
      -- a hook that was called for the same id was called for the same event
      obtain ⟨call, hcall, hid⟩ := List.mem_map.mp hmem
      obtain ⟨j, hj, requestId', request', hemitted, rfl⟩ := hl.delivered call hcall
      rw [requestId_hookCall] at hid
      subst hid
      cases h.numbered.emitted_inj hemitted hk
      exact hnew hj
    · rw [hstep]
      exact hl.fifo
    · rw [hstep]
      exact hl.cap

omit [EmptyCollection M] in
theorem keyOf_requestId (call : HookCall H) :
    keyOf call.requestId = reqKey call.reqHi call.reqLo := by
  obtain ⟨hhi, hlo⟩ := connId_inj (connId_halves call.requestId)
  rw [keyOf, hhi, hlo]

omit [EmptyCollection M] in
/-- A call was accepted because its hook was. -/
theorem Sound.accept_of_returned (h : w.Sound display collect maxPending)
    (hrunning : w.server.running = true) {i : ℕ} {userId : Option String} {requestId : UInt64}
    (hmem : (i, .accept userId requestId) ∈ w.numbering.authorizer.returned) :
    ∃ call metadata, (call, .accept userId metadata) ∈ w.settled ∧ call.requestId = requestId := by
  have htraced := Authorizer.traced_run display maxPending w.history
  rw [← h.authorizer] at htraced
  obtain ⟨requestId', outcome, hres, before, since, later, heq, -⟩ := htraced.returned _ _ hmem rfl
  apply (h.linked hrunning).resolved
  have hresolve : .resolve requestId' outcome ∈ w.history := by
    rw [heq]
    simp
  cases outcome with
  | accept u =>
    cases hres
    exact hresolve
  | reject code => cases hres

omit [EmptyCollection M] in
/-- A request has one hook, so what has not settled was not settled before. -/
theorem Linked.unsettled (h : w.Linked display collect) {k : ℕ} {call call' : HookCall H}
    (hk : w.server.hooks[k]? = some call) (hcall' : call' ∈ w.settled.map Prod.fst) :
    call'.requestId ≠ call.requestId := by
  have hdistinct := h.distinct
  rw [asked, List.map_append, List.nodup_append] at hdistinct
  intro heq
  exact hdistinct.2.2 _ (List.mem_map_of_mem (List.mem_of_getElem? hk)) _
    (List.mem_map_of_mem hcall') heq.symm

omit [EmptyCollection M] in
theorem mem_sets {settled : List (HookCall H × HookResult M)} {key : String} {auth : PendingAuth M}
    (h : (key, auth) ∈ sets settled) : ∃ call, (call, .accept auth.userId auth.metadata) ∈ settled ∧
      key = reqKey call.reqHi call.reqLo := by
  obtain ⟨⟨call, result⟩, hmem, heq⟩ := List.mem_filterMap.mp h
  cases result with
  | accept userId metadata =>
    cases heq
    exact ⟨call, hmem, rfl⟩
  | reject code => cases heq
  | throws => cases heq

omit [EmptyCollection M] in
/-- The store after a hook settled. -/
theorem Sound.fifo_stash (h : w.Sound display collect maxPending)
    (hrunning : w.server.running = true) {k : ℕ} {call : HookCall H}
    (hk : w.server.hooks[k]? = some call) (result : HookResult M) :
    MetaLog.Fifo ⟨result.stash call w.server.pendingAuth, sets ((call, result) :: w.settled),
      w.takes⟩ := by
  have hl := h.linked hrunning
  have hother : ∀ call' result', (call', result') ∈ w.settled → call'.requestId ≠ call.requestId :=
    fun call' result' hmem => hl.unsettled hk (List.mem_map_of_mem hmem)
  cases result with
  | accept userId metadata =>
    have hfresh : MetaLog.FreshKeys ⟨w.server.pendingAuth, sets w.settled, w.takes⟩
        (.set (reqKey call.reqHi call.reqLo) ⟨userId, metadata⟩) := by
      refine ⟨fun hkey => ?_, fun hkey => ?_⟩
      · obtain ⟨⟨key, auth⟩, hmem, heq⟩ := List.mem_map.mp hkey
        obtain ⟨call', hsettled, hkey'⟩ := mem_sets hmem
        refine hother call' _ hsettled (keyOf_inj ?_)
        rw [keyOf_requestId, keyOf_requestId, ← hkey']
        exact heq
      · obtain ⟨i, -, userId', requestId, hreturned, heq⟩ := hl.taken _ hkey
        obtain ⟨call', metadata', hsettled, rfl⟩ := h.accept_of_returned hrunning hreturned
        refine hother call' _ hsettled (keyOf_inj ?_)
        rw [keyOf_requestId call]
        exact heq.symm
    exact MetaLog.fifo_set hl.fifo hfresh
  | reject code => exact hl.fifo
  | throws => exact hl.fifo

omit [EmptyCollection M] in
theorem cap_stash (call : HookCall H) (store : BoundedMetaMap (PendingAuth M))
    (result : HookResult M) : (result.stash call store).cap = store.cap := by
  cases result with
  | accept userId metadata => exact BoundedMetaMap.cap_set ..
  | reject code => rfl
  | throws => rfl

theorem Sound.settle (h : w.Sound display collect maxPending) {k : ℕ} {call : HookCall H}
    (hk : w.server.hooks[k]? = some call) (result : HookResult M)
    (hlt : w.numbering.issued.length + 2 < 2 ^ 64) :
    ({ w with settled := (call, result) :: w.settled }.act display (.settle k result)).Sound
      display collect maxPending := by
  cases hrunning : w.server.running with
  | false =>
    exact sound_act_of_stopped (w := { w with settled := (call, result) :: w.settled })
      h.numbered h.authorizer hrunning _
  | true =>
    have hl := h.linked hrunning
    have hstep := step_settle hrunning hk result
    obtain ⟨outcome, hresolves, haccept⟩ := resolves_resolution call result
    have hres : resolutions w.server (.settle k result) = [.resolve call.requestId outcome] := by
      rw [resolutions_of_native hstep rfl]
      simp [hresolves]
    have hact : act display { w with settled := (call, result) :: w.settled } (.settle k result) =
        engineStep display
          { w with
            settled := (call, result) :: w.settled
            server := w.server.step (.settle k result) } (.resolve call.requestId outcome) := by
      unfold act
      dsimp only
      rw [hres]
      rfl
    rw [hact]
    apply Sound.engine
    · refine ⟨h.numbered, h.authorizer, fun _ => ?_⟩
      have hperm : (asked { w with
            settled := (call, result) :: w.settled
            server := w.server.step (.settle k result) }).Perm w.asked := by
        unfold asked
        dsimp only
        rw [hstep]
        obtain ⟨hlt, hcall⟩ := List.getElem?_eq_some_iff.mp hk
        have herase := (List.getElem_cons_eraseIdx_perm hlt).append_right (w.settled.map Prod.fst)
        rw [hcall] at herase
        exact List.perm_middle.trans herase
      refine ⟨by rw [hstep]; exact hl.hasHook, ?_, ?_, ?_, ?_, ?_, hl.taken⟩
      · intro call' hcall'
        exact hl.delivered call' (hperm.subset hcall')
      · exact ((hperm.map _).nodup_iff).mpr hl.distinct
      · intro requestId userId hmem
        obtain ⟨call', metadata, hsettled, hid⟩ := hl.resolved requestId userId hmem
        exact ⟨call', metadata, List.mem_cons_of_mem _ hsettled, hid⟩
      · rw [hstep]
        exact h.fifo_stash hrunning hk result
      · rw [hstep]
        exact (cap_stash call _ result).trans hl.cap
    · rintro - requestId userId heq
      obtain ⟨rfl, houtcome⟩ := AuthorizeEvent.resolve.inj heq
      obtain ⟨metadata, rfl⟩ := haccept userId houtcome
      exact ⟨call, metadata, List.mem_cons_self, rfl⟩
    · exact hlt

omit [EmptyCollection M] in
theorem mem_returned_of_accepted {a : Authorizer} {i : ℕ} {requestId : UInt64}
    (h : accepted a i = some requestId) : ∃ userId, (i, .accept userId requestId) ∈ a.returned := by
  obtain ⟨⟨j, resolution⟩, hmem, heq⟩ := List.exists_of_findSome?_eq_some h
  cases resolution with
  | accept userId id =>
    dsimp only at heq
    split_ifs at heq with hj
    cases heq
    exact ⟨userId, hj ▸ hmem⟩
  | reject code reason => cases heq

theorem Sound.connect (h : w.Sound display collect maxPending) {i : ℕ} {requestId : UInt64}
    (hi : accepted w.numbering.authorizer i = some requestId) (id : ConnectionId) :
    ({ w with
        connected := i :: w.connected
        takes := (keyOf requestId, (w.server.pendingAuth.take (keyOf requestId)).1) :: w.takes
      }.act display (.handle (called collect (.connectionOpened id (some requestId))))).Sound
      display collect maxPending := by
  cases hrunning : w.server.running with
  | false =>
    exact sound_act_of_stopped
      (w := { w with
        connected := i :: w.connected
        takes := (keyOf requestId, (w.server.pendingAuth.take (keyOf requestId)).1) :: w.takes })
      h.numbered h.authorizer hrunning _
  | true =>
    have hl := h.linked hrunning
    have hstep := handle_connectionOpened collect hrunning id requestId
    obtain ⟨userId, hreturned⟩ := mem_returned_of_accepted hi
    rw [act_of_nil
      (w := { w with
        connected := i :: w.connected
        takes := (keyOf requestId, (w.server.pendingAuth.take (keyOf requestId)).1) :: w.takes })
      (resolutions_of_eq hstep rfl)]
    refine ⟨h.numbered, h.authorizer, fun _ => ?_⟩
    have hasked : asked { w with
          connected := i :: w.connected
          takes := (keyOf requestId, (w.server.pendingAuth.take (keyOf requestId)).1) :: w.takes
          server := w.server.step (.handle (called collect (.connectionOpened id (some requestId))))
        } = w.asked := by
      unfold asked
      dsimp only
      rw [hstep]
      rfl
    refine ⟨by rw [hstep]; exact hl.hasHook, ?_, ?_, hl.resolved, ?_, ?_, ?_⟩
    · rw [hasked]
      intro call hcall
      exact hl.delivered call hcall
    · rw [hasked]
      exact hl.distinct
    · rw [hstep]
      exact MetaLog.fifo_take hl.fifo (keyOf requestId)
    · rw [hstep]
      exact (BoundedMetaMap.cap_take ..).trans hl.cap
    · intro key hkey
      rcases List.mem_cons.mp hkey with rfl | hold
      · exact ⟨i, List.mem_cons_self, userId, requestId, hreturned, rfl⟩
      · obtain ⟨j, hj, rest⟩ := hl.taken key hold
        exact ⟨j, List.mem_cons_of_mem _ hj, rest⟩

theorem Sound.other (h : w.Sound display collect maxPending) {ev : ServerEvent H M}
    (hev : ev.isOther = true) : (w.act display ev).Sound display collect maxPending := by
  obtain ⟨hleaves, hnil⟩ := step_of_isOther (s := w.server) hev
  rw [act_of_nil hnil]
  refine ⟨h.numbered, h.authorizer, fun hrunning => ?_⟩
  have hl := h.linked (hleaves.running hrunning)
  have hasked : asked { w with server := w.server.step ev } = w.asked := by
    show (w.server.step ev).hooks ++ _ = _
    rw [hleaves.hooks]
    rfl
  refine ⟨hleaves.hasHook.trans hl.hasHook, ?_, ?_, hl.resolved, ?_, ?_, hl.taken⟩
  · rw [hasked]
    exact hl.delivered
  · rw [hasked]
    exact hl.distinct
  · show MetaLog.Fifo ⟨(w.server.step ev).pendingAuth, _, _⟩
    rw [hleaves.pendingAuth hrunning]
    exact hl.fifo
  · show (w.server.step ev).pendingAuth.cap = _
    rw [hleaves.pendingAuth hrunning]
    exact hl.cap

/-- An id can be given out. -/
def Unwrapped (w : Upgrades H M) (_ : UpgradeEvent H M) : Prop :=
  w.numbering.issued.length + 2 < 2 ^ 64

theorem sound_step (w : Upgrades H M) (e : UpgradeEvent H M)
    (h : w.Sound display collect maxPending) (hlt : w.Unwrapped e) :
    (w.step display collect e).Sound display collect maxPending := by
  cases e with
  | engine e =>
    unfold step
    dsimp only
    split_ifs with hresolve
    · exact h
    · refine h.engine ?_ hlt
      rintro - requestId userId rfl
      exact absurd rfl hresolve
  | deliver k =>
    unfold step
    dsimp only
    split
    · next ev hev =>
      split_ifs with hmem
      · exact h
      · exact h.deliver hev (by simpa using hmem)
    · exact h
  | settle k result =>
    unfold step
    dsimp only
    split
    · next call hcall => exact h.settle hcall result hlt
    · exact h
  | connect i id =>
    unfold step
    dsimp only
    split
    · next requestId hi =>
      split_ifs with hmem
      · exact h
      · exact h.connect hi id
    · exact h
  | other ev =>
    unfold step
    dsimp only
    split_ifs with hev
    · exact h.other hev
    · exact h

/-- A step gives out one id at most. -/
theorem issued_step (display : IpAddr → String) (collect : List (String × String) → H)
    (w : Upgrades H M) (e : UpgradeEvent H M) :
    (w.step display collect e).numbering.issued.length ≤ w.numbering.issued.length + 1 := by
  have hact : ∀ (w : Upgrades H M) ev,
      (w.act display ev).numbering.issued = w.numbering.issued := by
    intro w ev
    have hresolve : ∀ e ∈ resolutions w.server ev, ∃ r outcome, e = .resolve r outcome := by
      intro e he
      obtain ⟨call, -, hcall⟩ := List.mem_filterMap.mp he
      obtain ⟨r, -, rfl⟩ := Option.map_eq_some_iff.mp hcall
      exact ⟨r.1, r.2, rfl⟩
    show (run (engineStep display) { w with server := w.server.step ev }
      (resolutions w.server ev)).numbering.issued = w.numbering.issued
    refine run_invariant_of_mem
      (I := fun v : Upgrades H M => v.numbering.issued = w.numbering.issued) ?_ rfl
    intro e he v hv
    obtain ⟨r, outcome, rfl⟩ := hresolve e he
    exact hv
  cases e with
  | engine e =>
    unfold step
    dsimp only
    split_ifs
    · exact Nat.le_succ _
    · show (w.numbering.authorizer.issues e ++ w.numbering.issued).length ≤ _
      rw [List.length_append, Nat.add_comm]
      apply Nat.add_le_add_left
      rcases w.numbering.authorizer.nextId_step display e with ⟨hnone, -⟩ | ⟨i, hone, -⟩
      · rw [hnone]
        exact Nat.zero_le 1
      · rw [hone]
        exact le_rfl
  | deliver k =>
    unfold step
    dsimp only
    split
    · split_ifs
      · exact Nat.le_succ _
      · rw [hact]
        exact Nat.le_succ _
    · exact Nat.le_succ _
  | settle k result =>
    unfold step
    dsimp only
    split
    · rw [hact]
      exact Nat.le_succ _
    · exact Nat.le_succ _
  | connect i id =>
    unfold step
    dsimp only
    split
    · split_ifs
      · exact Nat.le_succ _
      · rw [hact]
        exact Nat.le_succ _
    · exact Nat.le_succ _
  | other ev =>
    unfold step
    dsimp only
    split_ifs
    · rw [hact]
      exact Nat.le_succ _
    · exact Nat.le_succ _

theorem sound_run (nodeId : Option Mesh.NodeId) {evs : List (UpgradeEvent H M)}
    (hlength : evs.length + 2 < 2 ^ 64) :
    (run (step display collect) (start maxPending nodeId) evs).Sound display collect
      maxPending := by
  have hmeet : ∀ (w : Upgrades H M) (evs : List (UpgradeEvent H M)),
      w.numbering.issued.length + evs.length + 2 < 2 ^ 64 →
      StepsMeet (step display collect) Unwrapped w evs := by
    intro w evs
    induction evs generalizing w with
    | nil => exact fun _ => trivial
    | cons e evs ih =>
      intro hlt
      have hissued := issued_step display collect w e
      rw [List.length_cons] at hlt
      refine ⟨?_, ih _ (by omega)⟩
      show w.numbering.issued.length + 2 < 2 ^ 64
      omega
  refine run_invariant_of_stepsMeet sound_step (sound_start nodeId) (hmeet _ evs ?_)
  show 0 + evs.length + 2 < 2 ^ 64
  omega

/-! ## The socket of a connection -/

omit [EmptyCollection M] in
theorem hookCall_congr (collect : List (String × String) → H) {requestId requestId' : UInt64}
    {request request' : UpgradeRequest}
    (h : authorizeEvent display requestId request = authorizeEvent display requestId' request') :
    requestId = requestId' ∧
      hookCall display collect requestId request =
        hookCall display collect requestId' request' := by
  obtain ⟨hid, hip, hurl, hheaders⟩ := EngineEvent.authorize.inj h
  refine ⟨hid, ?_⟩
  unfold hookCall
  rw [hid, hip, hurl, hheaders]

omit [EmptyCollection M] in
/-- The hook of a call that was accepted: it was called with the request of this call. -/
theorem Sound.hook_of_returned (h : w.Sound display collect maxPending)
    (hrunning : w.server.running = true) {i : ℕ} {userId : Option String} {requestId : UInt64}
    (hmem : (i, .accept userId requestId) ∈ w.numbering.authorizer.returned) :
    ∃ request metadata, w.numbering.requests[i]? = some request ∧
      (hookCall display collect requestId request, .accept userId metadata) ∈ w.settled := by
  obtain ⟨call, metadata, hsettled, hid⟩ := h.accept_of_returned hrunning hmem
  obtain ⟨k, -, requestId', request', hemitted, rfl⟩ := (h.linked hrunning).delivered call
    (List.mem_append_right _ (List.mem_map_of_mem hsettled))
  rw [requestId_hookCall] at hid
  subst hid
  obtain ⟨requestId, j, request, heq, ⟨hissued, hrequest⟩, -⟩ :=
    h.numbered.emitted _ (List.mem_of_getElem? hemitted)
  obtain ⟨rfl, hcall⟩ := hookCall_congr collect heq
  cases h.numbered.owner hissued (h.numbered.returned i userId _ hmem)
  exact ⟨request, metadata, hrequest, hcall ▸ hsettled⟩

omit [EmptyCollection M] in
/-- Its entry in the correlation store has not been taken. -/
theorem Sound.untaken (h : w.Sound display collect maxPending)
    (hrunning : w.server.running = true) {i : ℕ} {userId : Option String} {requestId : UInt64}
    (hmem : (i, .accept userId requestId) ∈ w.numbering.authorizer.returned)
    (hnew : i ∉ w.connected) : keyOf requestId ∉ w.takes.map Prod.fst := by
  intro hkey
  obtain ⟨j, hj, userId', requestId', hmem', heq⟩ := (h.linked hrunning).taken _ hkey
  cases keyOf_inj heq
  cases h.numbered.owner (h.numbered.returned i _ _ hmem) (h.numbered.returned j _ _ hmem')
  exact hnew hj

omit [EmptyCollection M] in
/-- What is taken out of the correlation store under the key of an entry that was set. -/
theorem take_of_split (h : w.Linked display collect)
    {call : HookCall H} {userId : Option String} {metadata : Option M}
    {later earlier : List (HookCall H × HookResult M)}
    (hsplit : w.settled = later ++ (call, .accept userId metadata) :: earlier)
    (huntaken : reqKey call.reqHi call.reqLo ∉ w.takes.map Prod.fst) :
    (w.server.pendingAuth.take (reqKey call.reqHi call.reqLo)).1 = some ⟨userId, metadata⟩ ∨
      (w.server.pendingAuth.take (reqKey call.reqHi call.reqLo)).1 = none ∧
        pendingAuthCap ≤ (sets later).length := by
  have hfifo := h.fifo
  have hsets : sets w.settled =
      sets later ++ (reqKey call.reqHi call.reqLo, ⟨userId, metadata⟩) :: sets earlier := by
    rw [hsplit, sets, List.filterMap_append, List.filterMap_cons]
    rfl
  have hset : (reqKey call.reqHi call.reqLo, ⟨userId, metadata⟩) ∈ sets w.settled := by
    rw [hsets]
    simp
  unfold BoundedMetaMap.take
  cases hget : w.server.pendingAuth.map.get (reqKey call.reqHi call.reqLo) with
  | some auth =>
    left
    have hmem := hfifo.mem_sets (InsertionMap.get_eq_some_iff.mp hget)
    have heq := List.inj_on_of_nodup_map hfifo.distinct hmem hset rfl
    rw [(Prod.mk.inj heq).2]
  | none =>
    refine .inr ⟨rfl, ?_⟩
    by_contra hlt
    rw [← h.cap] at hlt
    have hrecent := hfifo.recent (sets later).length (by simpa using hlt)
      (reqKey call.reqHi call.reqLo, ⟨userId, metadata⟩) (by simp [hsets]) huntaken
    exact InsertionMap.get_eq_none_iff.mp hget (List.mem_map_of_mem hrecent)

theorem server_connect {i : ℕ} {requestId : UInt64}
    (hi : accepted w.numbering.authorizer i = some requestId) (hnew : i ∉ w.connected)
    (hrunning : w.server.running = true) (id : ConnectionId) :
    (w.step display collect (.connect i id)).server =
      w.server.opened (idHi id) (idLo id) (some (idHi requestId, idLo requestId)) := by
  have hstep := handle_connectionOpened collect hrunning id requestId
  unfold step
  dsimp only
  rw [hi]
  dsimp only
  rw [if_neg (by simpa using hnew), act_of_nil
    (w := { w with
      connected := i :: w.connected
      takes := (keyOf requestId, (w.server.pendingAuth.take (keyOf requestId)).1) :: w.takes })
    (resolutions_of_eq hstep rfl)]
  exact hstep

/-- Call `i` was accepted under `requestId`, because the hook was called with the request of
    call `i` and accepted. The socket carries what the hook returned; or it carries nothing, and
    the hooks have accepted `PENDING_AUTH_CAP` other requests since. -/
def Carries (display : IpAddr → String) (collect : List (String × String) → H) (w : Upgrades H M)
    (i : ℕ) (requestId : UInt64) (socket : Socket M) : Prop :=
  ∃ userId metadata request later earlier,
    (i, .accept userId requestId) ∈ w.numbering.authorizer.returned ∧
    w.numbering.requests[i]? = some request ∧
    w.settled =
      later ++ (hookCall display collect requestId request, .accept userId metadata) :: earlier ∧
    (socket.userId = userId ∧ socket.metadata = metadata.getD ∅ ∨
      socket.userId = none ∧ socket.metadata = ∅ ∧ pendingAuthCap ≤ (sets later).length)

/-- Take any run of the authorizer, the hooks and the server object, with fewer than
    `2 ^ 64 - 2` steps and before `io.close()`. When the connection of a call of `authorize` that
    was accepted opens, a socket is constructed for it, and carries the identity that the hook
    returned for the request of this connection. -/
theorem socket_identity (display : IpAddr → String) (collect : List (String × String) → H)
    (maxPending : ℕ) (nodeId : Option Mesh.NodeId) (evs : List (UpgradeEvent H M))
    (hlength : evs.length + 2 < 2 ^ 64) (i : ℕ) (id : ConnectionId) (requestId : UInt64)
    (hi : accepted (run (step display collect) (start maxPending nodeId) evs).numbering.authorizer
      i = some requestId)
    (hnew : i ∉ (run (step display collect) (start maxPending nodeId) evs).connected)
    (hrunning : (run (step display collect) (start maxPending nodeId) evs).server.running = true) :
    let w := run (step display collect) (start maxPending nodeId) evs
    ∃ socket, (w.step display collect (.connect i id)).server.objects =
        w.server.objects ++ [socket] ∧
      socket.idHi = idHi id ∧ socket.idLo = idLo id ∧
      w.Carries display collect i requestId socket := by
  intro w
  have h : w.Sound display collect maxPending := sound_run nodeId hlength
  obtain ⟨userId, hreturned⟩ := mem_returned_of_accepted hi
  obtain ⟨request, metadata, hrequest, hsettled⟩ := h.hook_of_returned hrunning hreturned
  obtain ⟨later, earlier, hsplit⟩ := List.append_of_mem hsettled
  have htake := take_of_split (h.linked hrunning) hsplit (h.untaken hrunning hreturned hnew)
  refine ⟨w.server.socketFor (idHi id) (idLo id) (some (idHi requestId, idLo requestId)), ?_, rfl,
    rfl, userId, metadata, request, later, earlier, hreturned, hrequest, hsplit, ?_⟩
  · rw [server_connect hi hnew hrunning]
    rfl
  · have hinfo : (w.server.takeAuth (some (idHi requestId, idLo requestId))).1 =
        (w.server.pendingAuth.take (keyOf requestId)).1 := rfl
    unfold Server.socketFor
    dsimp only
    rw [hinfo]
    rcases htake with hsome | ⟨hnone, hcap⟩
    · replace hsome : (w.server.pendingAuth.take (keyOf requestId)).1 = _ := hsome
      rw [hsome]
      exact .inl ⟨rfl, rfl⟩
    · replace hnone : (w.server.pendingAuth.take (keyOf requestId)).1 = _ := hnone
      rw [hnone]
      exact .inr ⟨rfl, rfl, hcap⟩

end Upgrades

namespace Ann

/-- Two upgrades; the hook of the second settles first. -/
def evs : List (UpgradeEvent Unit (List String)) :=
  [.engine (.call ⟨.v4 1, "/ann", []⟩), .engine (.call ⟨.v4 2, "/bob", []⟩)] ++
    (List.replicate 4 [.engine (.step 0), .engine (.step 1)]).flatten ++
    [.deliver 0, .deliver 1, .settle 1 (.accept (some "bob") none),
      .settle 0 (.accept (some "ann") (some ["admin"])),
      .engine (.send 0 (.accept (some "ann"))), .engine (.poll 0 false),
      .engine (.step 0), .engine (.step 0)]

theorem ann_identity :
    let w := run (Upgrades.step (fun _ => "") fun _ => ()) (.start 8 none) evs
    ∃ socket, (w.step (fun _ => "") (fun _ => ()) (.connect 0 5)).server.objects =
        w.server.objects ++ [socket] ∧
      socket.idHi = idHi 5 ∧ socket.idLo = idLo 5 ∧
      w.Carries (fun _ => "") (fun _ => ()) 0 1 socket :=
  Upgrades.socket_identity (fun _ => "") (fun _ => ()) 8 none evs (by decide) 0 5 1 rfl
    (by decide) rfl

end Ann

end BeamSocket.Sdk
