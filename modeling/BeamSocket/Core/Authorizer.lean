import BeamSocket.Core.ClientIp
import BeamSocket.Core.Events
import BeamSocket.Lib.Run
import BeamSocket.Lib.Tasks

/-!
# The authorize round trip

Model of `Authorizer` (`crates/core/src/identity.rs`, lines 97–252), cut into atomic
steps: each operation on the counters, each locked operation on the table of pending
requests, the two steps of `resolve`, and the polls of the timed wait. A call is the
number of calls made before it; its `oneshot` channel goes by the same number, so the
table maps a request id to a call. Request ids are 64 bits wide and wrap around, so
two calls can have the same one; a sender that is overwritten or removed is dropped.

* `Authorizer.sound_run`: the counter, the entries of the table and the number of
  results of each call.
* `Authorizer.lookup_finishing`: a call can always return.
-/

namespace BeamSocket.Core

open BeamSocket.Lib

/-- `CLOSE_AUTH_UNAVAILABLE`. -/
def closeAuthUnavailable : UInt16 := 1013

/-- `enum AuthorizeOutcome` (lines 103–106). -/
inductive AuthorizeOutcome
  | accept (userId : Option String)
  | reject (code : UInt16)
  deriving DecidableEq, Repr

/-- `enum AuthorizeResolution` (lines 110–119). -/
inductive AuthorizeResolution
  | accept (userId : Option UserId) (requestId : UInt64)
  | reject (code : UInt16) (reason : String)
  deriving DecidableEq, Repr

/-- The first two arms of the match of `authorize` (lines 206–216). -/
def AuthorizeOutcome.resolution (requestId : UInt64) : AuthorizeOutcome → AuthorizeResolution
  | .accept userId => .accept userId requestId
  | .reject code => .reject code "unauthorized"

/-- An `Accept`, or a `Reject` of the application. -/
def AuthorizeResolution.isApp : AuthorizeResolution → Bool
  | .accept _ _ => true
  | .reject _ reason => reason == "unauthorized"

/-- The receiver of a `oneshot` channel. -/
inductive Oneshot
  | empty
  | sent (outcome : AuthorizeOutcome)
  /-- The sender was dropped without sending. -/
  | closed
  deriving DecidableEq, Repr

/-- The receiver after a `send`. -/
def Oneshot.receive (outcome : AuthorizeOutcome) : Oneshot → Oneshot
  | .empty => .sent outcome
  | rx => rx

/-- The receiver after a drop of the sender. -/
def Oneshot.senderDropped : Oneshot → Oneshot
  | .empty => .closed
  | rx => rx

/-- The arguments of `authorize`. -/
structure UpgradeRequest where
  clientIp : IpAddr
  url : String
  headers : List (String × String)
  deriving DecidableEq, Repr

/-- A call of `authorize`, by what it does next. -/
inductive AuthorizeCall
  | reserving (request : UpgradeRequest)
  /-- Over the cap; `fetch_sub` is next. -/
  | shedding
  /-- The permit is held. -/
  | permitted (request : UpgradeRequest)
  | numbered (requestId : UInt64) (request : UpgradeRequest)
  | emitting (requestId : UInt64) (request : UpgradeRequest)
  | waiting (requestId : UInt64)
  /-- The last `pending.remove` is next. -/
  | cleaning (requestId : UInt64) (resolution : AuthorizeResolution)
  /-- The drop of the permit is next. -/
  | releasing (resolution : AuthorizeResolution)
  deriving DecidableEq, Repr

namespace AuthorizeCall

/-- The counter includes the call. -/
def isCounted : AuthorizeCall → Bool
  | reserving _ => false
  | _ => true

/-- The call holds an `InFlightPermit`. -/
def isPermitted : AuthorizeCall → Bool
  | reserving _ | shedding => false
  | _ => true

/-- The call has put its sender in the table. -/
def isRegistered : AuthorizeCall → Bool
  | emitting _ _ | waiting _ | cleaning _ _ | releasing _ => true
  | _ => false

/-- The id under which the table may hold the call. -/
def entry : AuthorizeCall → Option UInt64
  | emitting requestId _ | waiting requestId | cleaning requestId _ => some requestId
  | _ => none

/-- What the call is about to return. -/
def result : AuthorizeCall → Option AuthorizeResolution
  | cleaning _ resolution | releasing resolution => some resolution
  | _ => none

end AuthorizeCall

/-- `struct Authorizer` with its calls. `inFlight` counts calls that exist, which are
    fewer than the 2⁶⁴ that the counter can hold. -/
structure Authorizer where
  maxPending : ℕ
  /-- Request id to call. -/
  pending : AList fun _ : UInt64 => ℕ
  nextId : UInt64
  inFlight : ℕ
  pendingOverflow : ℕ
  authorizeRejected : ℕ
  authorizeTimedOut : ℕ
  /-- What `events.control` was called with, oldest first. -/
  emitted : List EngineEvent
  /-- The number of calls made. -/
  started : ℕ
  calls : Tasks AuthorizeCall
  receivers : Tasks Oneshot
  /-- The `resolve` calls that have taken a sender and not yet sent. -/
  sending : List (ℕ × AuthorizeOutcome)
  /-- What the calls have returned, newest first. -/
  returned : List (ℕ × AuthorizeResolution)

/-- The atomic steps of `authorize` and `resolve`. -/
inductive AuthorizeEvent
  | call (request : UpgradeRequest)
  /-- Call `i` takes its next step. -/
  | step (i : ℕ)
  /-- Call `i` polls its timed wait. -/
  | poll (i : ℕ) (elapsed : Bool)
  /-- `resolve` is called and takes the sender out of the table. -/
  | resolve (requestId : UInt64) (outcome : AuthorizeOutcome)
  /-- A `resolve` that has taken the sender of call `i` sends. -/
  | send (i : ℕ) (outcome : AuthorizeOutcome)
  deriving DecidableEq, Repr

namespace Authorizer

/-- `Authorizer::new`. -/
def new (maxPending : ℕ) : Authorizer :=
  { maxPending, pending := ∅, nextId := 1, inFlight := 0, pendingOverflow := 0,
    authorizeRejected := 0, authorizeTimedOut := 0, emitted := [], started := 0, calls := ∅,
    receivers := ∅, sending := [], returned := [] }

/-- Call `i`, with `next` left to do. -/
def setCall (a : Authorizer) (i : ℕ) (next : Option AuthorizeCall) : Authorizer :=
  { a with calls := a.calls.set i next }

/-- Call `i` returns. -/
def finish (a : Authorizer) (i : ℕ) (resolution : AuthorizeResolution) : Authorizer :=
  { a.setCall i none with returned := (i, resolution) :: a.returned }

/-- The receivers after the drop of the sender that the table held, if any. -/
def dropSender (receivers : Tasks Oneshot) : Option ℕ → Tasks Oneshot
  | none => receivers
  | some i => receivers.modify i .senderDropped

/-- `events.control` is called with `ev`. -/
def emit (a : Authorizer) (ev : EngineEvent) : Authorizer := { a with emitted := a.emitted ++ [ev] }

/-- The wait of call `i` is over and its receiver is dropped. -/
def settle (a : Authorizer) (i : ℕ) (requestId : UInt64) (resolution : AuthorizeResolution) :
    Authorizer :=
  { a with receivers := a.receivers.erase i }.setCall i (some (.cleaning requestId resolution))

variable (display : IpAddr → String)

/-- A step of `authorize` (lines 172–238) outside the timed wait. -/
def callStep (a : Authorizer) (i : ℕ) : AuthorizeCall → Authorizer
  | .reserving request =>
    { a with inFlight := a.inFlight + 1 }.setCall i
      (some (if a.inFlight ≥ a.maxPending then .shedding else .permitted request))
  | .shedding =>
    { a with inFlight := a.inFlight - 1, pendingOverflow := a.pendingOverflow + 1 }.finish i
      (.reject closeAuthUnavailable "pending-upgrade table full")
  | .permitted request =>
    { a with nextId := a.nextId + 1 }.setCall i (some (.numbered a.nextId request))
  | .numbered requestId request =>
    { a with
      pending := a.pending.insert requestId i
      receivers := dropSender (a.receivers.insert i .empty) (a.pending.lookup requestId) }.setCall i
      (some (.emitting requestId request))
  | .emitting requestId request =>
    (a.emit (.authorize requestId (display request.clientIp) request.url request.headers)).setCall i
      (some (.waiting requestId))
  | .waiting _ => a
  | .cleaning requestId resolution =>
    { a with
      pending := a.pending.erase requestId
      receivers := dropSender a.receivers (a.pending.lookup requestId) }.setCall i
      (some (.releasing resolution))
  | .releasing resolution => { a with inFlight := a.inFlight - 1 }.finish i resolution

/-- A poll of `timeout(self.timeout, rx)`: the receiver comes before the timer. -/
def pollStep (a : Authorizer) (i : ℕ) (elapsed : Bool) (requestId : UInt64) : Authorizer :=
  match (a.receivers.lookup i).getD .empty with
  | .sent (.accept userId) => a.settle i requestId (.accept userId requestId)
  | .sent (.reject code) =>
    { a with authorizeRejected := a.authorizeRejected + 1 }.settle i requestId
      (.reject code "unauthorized")
  | .closed => a.settle i requestId (.reject closeAuthUnavailable "authorize unavailable")
  | .empty =>
    if elapsed then
      { a with authorizeTimedOut := a.authorizeTimedOut + 1 }.settle i requestId
        (.reject closeAuthUnavailable "authorize timed out")
    else a

/-- One step of a call of `authorize` (lines 172–238) or of `resolve`. -/
def step (a : Authorizer) : AuthorizeEvent → Authorizer
  | .call request =>
    { a with started := a.started + 1, calls := a.calls.insert a.started (.reserving request) }
  | .step i =>
    match a.calls.lookup i with
    | none => a
    | some T => a.callStep display i T
  | .poll i elapsed =>
    match a.calls.lookup i with
    | some (.waiting requestId) => a.pollStep i elapsed requestId
    | _ => a
  -- `resolve` (lines 243–247)
  | .resolve requestId outcome =>
    match a.pending.lookup requestId with
    | none => a
    | some i =>
      { a with pending := a.pending.erase requestId, sending := (i, outcome) :: a.sending }
  | .send i outcome =>
    if (i, outcome) ∈ a.sending then
      { a with
        sending := a.sending.erase (i, outcome)
        receivers := a.receivers.modify i (.receive outcome) }
    else a

/-! ## What a step does -/

variable {a : Authorizer} {i : ℕ} {T : AuthorizeCall}

theorem lookup_setCall (a : Authorizer) (i j : ℕ) (next : Option AuthorizeCall) :
    (a.setCall i next).calls.lookup j = if j = i then next else a.calls.lookup j :=
  Tasks.lookup_set a.calls i j next

/-- A poll leaves the call waiting, or ends the wait; with a resolution of the
    application only if the receiver holds the outcome. -/
theorem pollStep_cases (a : Authorizer) (i : ℕ) (elapsed : Bool) (requestId : UInt64) :
    a.pollStep i elapsed requestId = a ∨ ∃ rejected timedOut resolution,
      a.pollStep i elapsed requestId =
        { a with
          authorizeRejected := rejected
          authorizeTimedOut := timedOut }.settle i requestId resolution ∧
      (resolution.isApp = true → ∃ outcome, a.receivers.lookup i = some (.sent outcome) ∧
        resolution = outcome.resolution requestId) := by
  have hown : ∀ reason, reason ≠ "unauthorized" →
      (AuthorizeResolution.reject closeAuthUnavailable reason).isApp ≠ true := by
    intro reason hne hisApp
    exact hne (eq_of_beq hisApp)
  have hsent : ∀ outcome, (a.receivers.lookup i).getD .empty = .sent outcome →
      a.receivers.lookup i = some (.sent outcome) := by
    intro outcome hrx
    cases hlookup : a.receivers.lookup i with
    | none =>
      rw [hlookup] at hrx
      cases hrx
    | some rx =>
      rw [hlookup, Option.getD_some] at hrx
      rw [hrx]
  unfold pollStep
  rcases hrx : (a.receivers.lookup i).getD .empty with _ | (userId | code) | _
  · cases elapsed with
    | true => exact .inr ⟨_, _, _, rfl, fun h => absurd h (hown _ (by simp))⟩
    | false => exact .inl rfl
  · exact .inr ⟨_, _, _, rfl, fun _ => ⟨.accept userId, hsent _ hrx, rfl⟩⟩
  · exact .inr ⟨_, _, _, rfl, fun _ => ⟨.reject code, hsent _ hrx, rfl⟩⟩
  · exact .inr ⟨_, _, _, rfl, fun h => absurd h (hown _ (by simp))⟩

/-- The steps that change something. -/
theorem step_cases (a : Authorizer) (e : AuthorizeEvent) :
    a.step display e = a ∨
    (∃ request, e = .call request) ∨
    (∃ i T, e = .step i ∧ a.calls.lookup i = some T ∧
      a.step display e = a.callStep display i T) ∨
    (∃ i elapsed requestId rejected timedOut resolution, e = .poll i elapsed ∧
      a.calls.lookup i = some (.waiting requestId) ∧
      a.step display e =
        { a with
          authorizeRejected := rejected
          authorizeTimedOut := timedOut }.settle i requestId resolution ∧
      (resolution.isApp = true → ∃ outcome, a.receivers.lookup i = some (.sent outcome) ∧
        resolution = outcome.resolution requestId)) ∨
    (∃ requestId outcome i, e = .resolve requestId outcome ∧
      a.pending.lookup requestId = some i ∧
      a.step display e =
        { a with
          pending := a.pending.erase requestId
          sending := (i, outcome) :: a.sending }) ∨
    (∃ i outcome, e = .send i outcome ∧ (i, outcome) ∈ a.sending ∧
      a.step display e =
        { a with
          sending := a.sending.erase (i, outcome)
          receivers := a.receivers.modify i (.receive outcome) }) := by
  cases e with
  | call request => exact .inr (.inl ⟨request, rfl⟩)
  | step i =>
    unfold step
    dsimp only
    cases hi : a.calls.lookup i with
    | none => exact .inl rfl
    | some T => exact .inr (.inr (.inl ⟨i, T, rfl, hi, rfl⟩))
  | poll i elapsed =>
    unfold step
    dsimp only
    split
    · next requestId hi =>
      rcases pollStep_cases a i elapsed requestId with h | ⟨rejected, timedOut, resolution, h⟩
      · exact .inl h
      · exact .inr (.inr (.inr (.inl
          ⟨i, elapsed, requestId, rejected, timedOut, resolution, rfl, hi, h⟩)))
    · exact .inl rfl
  | resolve requestId outcome =>
    unfold step
    dsimp only
    cases hi : a.pending.lookup requestId with
    | none => exact .inl rfl
    | some i => exact .inr (.inr (.inr (.inr (.inl ⟨requestId, outcome, i, rfl, hi, rfl⟩))))
  | send i outcome =>
    unfold step
    dsimp only
    split_ifs with hmem
    · exact .inr (.inr (.inr (.inr (.inr ⟨i, outcome, rfl, hmem, rfl⟩))))
    · exact .inl rfl

/-! ## The counter, the table and the results -/

/-- How many results call `i` has. -/
def results (a : Authorizer) (i : ℕ) : ℕ := a.returned.countP fun r => r.1 = i

/-- The counter counts the calls; those with a permit are within the bound; an entry is
    a running call under its own id; and a call has one result when it is over and none
    before. -/
structure Sound (a : Authorizer) : Prop where
  counted : a.inFlight = a.calls.count AuthorizeCall.isCounted
  permitted : a.calls.count AuthorizeCall.isPermitted ≤ a.maxPending
  entry : ∀ requestId i, a.pending.lookup requestId = some i →
    ∃ T, a.calls.lookup i = some T ∧ T.entry = some requestId
  started : ∀ i, a.started ≤ i → a.calls.lookup i = none
  once : ∀ i, a.results i + (if (a.calls.lookup i).isSome then 1 else 0) =
    if i < a.started then 1 else 0

theorem sound_new (maxPending : ℕ) : (new maxPending).Sound where
  counted := rfl
  permitted := Nat.zero_le _
  entry := nofun
  started _ _ := rfl
  once _ := rfl

theorem isCounted_of_isPermitted (hT : T.isPermitted = true) : T.isCounted = true := by
  cases T <;> first | rfl | cases hT

/-- Calls with a permit are counted. -/
theorem Sound.permitted_le (h : a.Sound) :
    a.calls.count AuthorizeCall.isPermitted ≤ a.inFlight := by
  rw [h.counted]
  apply List.countP_mono_left
  intro e _
  exact isCounted_of_isPermitted

/-- Call `i` goes on from `T` to `T'`. -/
theorem Sound.move (h : a.Sound) (hi : a.calls.lookup i = some T) {a' : Authorizer}
    {T' : AuthorizeCall} (hcalls : a'.calls = a.calls.set i (some T'))
    (hmax : a'.maxPending = a.maxPending) (hstarted : a'.started = a.started)
    (hreturned : a'.returned = a.returned)
    (hinFlight : a'.inFlight + Tasks.weight AuthorizeCall.isCounted (some T) =
      a.inFlight + Tasks.weight AuthorizeCall.isCounted (some T'))
    (hpermit : T'.isPermitted = true → T.isPermitted = true ∨ a.inFlight < a.maxPending)
    (hentry : ∀ requestId j, a'.pending.lookup requestId = some j →
      (j = i ∧ T'.entry = some requestId) ∨ (j ≠ i ∧ a.pending.lookup requestId = some j)) :
    a'.Sound := by
  have hlookup : ∀ j, a'.calls.lookup j = if j = i then some T' else a.calls.lookup j := by
    intro j
    rw [hcalls]
    exact Tasks.lookup_set ..
  refine ⟨?_, ?_, ?_, ?_, ?_⟩
  · have hcount := Tasks.count_set AuthorizeCall.isCounted a.calls i (some T')
    rw [hi] at hcount
    have := h.counted
    rw [hcalls]
    omega
  · have hcount := Tasks.count_set AuthorizeCall.isPermitted a.calls i (some T')
    rw [hi] at hcount
    have hle := h.permitted
    have hcounted := h.permitted_le
    rw [hcalls, hmax]
    simp only [Tasks.weight] at hcount
    split_ifs at hcount with hT hT' hT'
    · omega
    · omega
    · have := (hpermit hT').resolve_left hT
      omega
    · omega
  · intro requestId j hj
    rw [hlookup]
    rcases hentry requestId j hj with ⟨rfl, hT'⟩ | ⟨hne, hold⟩
    · exact ⟨T', if_pos rfl, hT'⟩
    · rw [if_neg hne]
      exact h.entry requestId j hold
  · intro j hj
    rw [hstarted] at hj
    have hnone := h.started j hj
    rw [hlookup, if_neg (by rintro rfl; rw [hi] at hnone; cases hnone)]
    exact hnone
  · intro j
    have hold := h.once j
    rw [hlookup, results, hreturned, hstarted]
    rw [results] at hold
    by_cases hj : j = i
    · subst hj
      rw [hi] at hold
      rw [if_pos rfl]
      exact hold
    · rw [if_neg hj]
      exact hold

/-- Call `i` returns. -/
theorem Sound.over (h : a.Sound) (hi : a.calls.lookup i = some T) (hT : T.isCounted = true)
    (hentry : T.entry = none) (resolution : AuthorizeResolution) {a' : Authorizer}
    (hcalls : a'.calls = a.calls) (hpending : a'.pending = a.pending)
    (hmax : a'.maxPending = a.maxPending) (hstarted : a'.started = a.started)
    (hreturned : a'.returned = a.returned) (hinFlight : a'.inFlight = a.inFlight - 1) :
    (a'.finish i resolution).Sound := by
  have hlookup : ∀ j, (a'.finish i resolution).calls.lookup j =
      if j = i then none else a.calls.lookup j := by
    intro j
    rw [← hcalls]
    exact Tasks.lookup_set ..
  have hset : (a'.finish i resolution).calls = a.calls.set i none := by
    rw [← hcalls]
    rfl
  refine ⟨?_, ?_, ?_, ?_, ?_⟩
  · have hcount := Tasks.count_set AuthorizeCall.isCounted a.calls i none
    rw [hi, Tasks.weight, Tasks.weight, if_pos hT] at hcount
    have := h.counted
    rw [hset]
    show a'.inFlight = _
    omega
  · have hcount := Tasks.count_set AuthorizeCall.isPermitted a.calls i none
    have := h.permitted
    rw [hset]
    show _ ≤ a'.maxPending
    simp only [Tasks.weight] at hcount
    omega
  · intro requestId j hj
    have hold : a.pending.lookup requestId = some j := by
      rw [← hpending]
      exact hj
    obtain ⟨U, hU, hid⟩ := h.entry requestId j hold
    have hne : j ≠ i := by
      rintro rfl
      rw [hi] at hU
      cases hU
      rw [hentry] at hid
      cases hid
    exact ⟨U, by rw [hlookup, if_neg hne]; exact hU, hid⟩
  · intro j hj
    rw [hlookup]
    split_ifs
    · rfl
    · apply h.started
      rw [← hstarted]
      exact hj
  · intro j
    have hold := h.once j
    have hresults : (a'.finish i resolution).results j = a.results j + if j = i then 1 else 0 := by
      show List.countP _ ((i, resolution) :: a'.returned) = _
      rw [hreturned, List.countP_cons, results]
      by_cases hj : j = i
      · simp [hj]
      · simp [hj, Ne.symm hj]
    rw [hlookup, hresults, show (a'.finish i resolution).started = a.started from hstarted]
    by_cases hj : j = i
    · subst hj
      rw [hi] at hold
      rw [if_pos rfl, if_pos rfl]
      exact hold
    · rw [if_neg hj, if_neg hj]
      exact hold

/-- The entries of a call that goes on under the same id, or has none. -/
theorem Sound.entry_keep (h : a.Sound) (hi : a.calls.lookup i = some T) {T' : AuthorizeCall}
    (hT : ∀ requestId, T.entry = some requestId → T'.entry = some requestId) (requestId : UInt64)
    (j : ℕ) (hj : a.pending.lookup requestId = some j) :
    (j = i ∧ T'.entry = some requestId) ∨ (j ≠ i ∧ a.pending.lookup requestId = some j) := by
  by_cases heq : j = i
  · subst heq
    obtain ⟨U, hU, hid⟩ := h.entry requestId j hj
    rw [hi] at hU
    cases hU
    exact .inl ⟨rfl, hT requestId hid⟩
  · exact .inr ⟨heq, hj⟩

theorem sound_callStep (h : a.Sound) (hi : a.calls.lookup i = some T) :
    (a.callStep display i T).Sound := by
  cases T with
  | reserving request =>
    unfold callStep
    split_ifs with hfull
    · exact h.move hi rfl rfl rfl rfl rfl nofun (h.entry_keep hi nofun)
    · exact h.move hi rfl rfl rfl rfl rfl (fun _ => .inr (by omega)) (h.entry_keep hi nofun)
  | shedding => exact h.over hi rfl rfl _ rfl rfl rfl rfl rfl rfl
  | permitted request =>
    exact h.move hi rfl rfl rfl rfl rfl (fun _ => .inl rfl) (h.entry_keep hi nofun)
  | numbered requestId request =>
    refine h.move hi rfl rfl rfl rfl rfl (fun _ => .inl rfl) ?_
    intro k j hj
    replace hj : (a.pending.insert requestId i).lookup k = some j := hj
    rw [lookup_insert] at hj
    split_ifs at hj with hk
    · cases hj
      exact .inl ⟨rfl, by rw [hk]; rfl⟩
    · exact h.entry_keep hi nofun k j hj
  | emitting requestId request =>
    exact h.move hi rfl rfl rfl rfl rfl (fun _ => .inl rfl) (h.entry_keep hi fun _ hid => hid)
  | waiting requestId => exact h
  | cleaning requestId resolution =>
    refine h.move hi rfl rfl rfl rfl rfl (fun _ => .inl rfl) ?_
    intro k j hj
    replace hj : (a.pending.erase requestId).lookup k = some j := hj
    rw [lookup_erase] at hj
    split_ifs at hj with hk
    refine .inr ⟨?_, hj⟩
    rintro rfl
    obtain ⟨U, hU, hid⟩ := h.entry k j hj
    rw [hi] at hU
    cases hU
    exact hk (Option.some.inj hid).symm
  | releasing resolution => exact h.over hi rfl rfl _ rfl rfl rfl rfl rfl rfl

theorem sound_call (h : a.Sound) (request : UpgradeRequest) :
    (a.step display (.call request)).Sound := by
  have hnone := h.started a.started le_rfl
  have hlookup : ∀ j, (a.step display (.call request)).calls.lookup j =
      if j = a.started then some (.reserving request) else a.calls.lookup j :=
    fun j => lookup_insert ..
  have hcount : ∀ p, p (AuthorizeCall.reserving request) = false →
      (a.step display (.call request)).calls.count p = a.calls.count p := by
    intro p hp
    have := Tasks.count_insert p a.calls a.started (.reserving request)
    rw [hnone, Tasks.weight, Tasks.weight, hp] at this
    exact this
  refine ⟨?_, ?_, ?_, ?_, ?_⟩
  · rw [hcount _ rfl]
    exact h.counted
  · rw [hcount _ rfl]
    exact h.permitted
  · intro requestId j hj
    obtain ⟨T, hT, hid⟩ := h.entry requestId j hj
    have hne : j ≠ a.started := by
      rintro rfl
      rw [hnone] at hT
      cases hT
    exact ⟨T, by rw [hlookup, if_neg hne]; exact hT, hid⟩
  · intro j hj
    replace hj : a.started + 1 ≤ j := hj
    rw [hlookup, if_neg (by omega)]
    exact h.started j (by omega)
  · intro j
    have hold := h.once j
    rw [hlookup]
    show a.results j + _ = if j < a.started + 1 then 1 else 0
    by_cases hj : j = a.started
    · subst hj
      rw [hnone, if_neg (lt_irrefl _)] at hold
      rw [if_pos rfl, if_pos (Nat.lt_succ_self _), Option.isSome_some, if_pos rfl]
      rw [Option.isSome_none, if_neg Bool.false_ne_true] at hold
      omega
    · rw [if_neg hj, hold]
      exact if_congr (by omega) rfl rfl

theorem sound_step (a : Authorizer) (e : AuthorizeEvent) (h : a.Sound) :
    (a.step display e).Sound := by
  rcases step_cases display a e with hsame | ⟨request, rfl⟩ | ⟨i, T, rfl, hi, hstep⟩ |
    ⟨i, elapsed, requestId, _, _, resolution, rfl, hi, hstep, -⟩ |
    ⟨requestId, outcome, i, rfl, hi, hstep⟩ | ⟨i, outcome, rfl, -, hstep⟩
  · rw [hsame]
    exact h
  · exact sound_call display h request
  · rw [hstep]
    exact sound_callStep display h hi
  · rw [hstep]
    exact h.move hi rfl rfl rfl rfl rfl (fun _ => .inl rfl) (h.entry_keep hi fun _ hid => hid)
  · rw [hstep]
    refine ⟨h.counted, h.permitted, ?_, h.started, h.once⟩
    intro k j hj
    replace hj : (a.pending.erase requestId).lookup k = some j := hj
    rw [lookup_erase] at hj
    split_ifs at hj
    exact h.entry k j hj
  · rw [hstep]
    exact ⟨h.counted, h.permitted, h.entry, h.started, h.once⟩

/-- The table has no more entries than there are calls with a permit. -/
theorem Sound.length_pending_le (h : a.Sound) :
    a.pending.entries.length ≤ a.calls.count AuthorizeCall.isPermitted := by
  apply Tasks.length_entries_le_count AuthorizeCall.isPermitted AuthorizeCall.entry
  intro requestId i hi
  obtain ⟨T, hT, hid⟩ := h.entry requestId i hi
  refine ⟨T, hT, ?_, hid⟩
  cases T <;> first | rfl | cases hid

theorem Sound.idle (h : a.Sound) (hidle : a.calls = ∅) : a.pending = ∅ ∧ a.inFlight = 0 := by
  constructor
  · have hlength := h.length_pending_le
    rw [hidle] at hlength
    exact AList.ext (List.length_eq_zero_iff.mp (Nat.le_zero.mp hlength))
  · rw [h.counted, hidle]
    rfl

theorem sound_run (maxPending : ℕ) (evs : List AuthorizeEvent) :
    (run (step display) (new maxPending) evs).Sound :=
  run_invariant (sound_step display) (sound_new maxPending)

theorem maxPending_run (maxPending : ℕ) (evs : List AuthorizeEvent) :
    (run (step display) (new maxPending) evs).maxPending = maxPending := by
  refine run_invariant (I := fun a : Authorizer => a.maxPending = maxPending) ?_ rfl
  intro a e h
  rcases step_cases display a e with hstep | ⟨request, rfl⟩ | ⟨i, T, rfl, hi, hstep⟩ |
    ⟨i, elapsed, requestId, _, _, resolution, rfl, hi, hstep, -⟩ |
    ⟨requestId, outcome, i, rfl, hi, hstep⟩ | ⟨i, outcome, rfl, -, hstep⟩
  · rw [hstep]
    exact h
  · exact h
  · rw [hstep]
    cases T <;> exact h
  · rw [hstep]
    exact h
  · rw [hstep]
    exact h
  · rw [hstep]
    exact h

/-! ## Every call can return -/

/-- How far the call is from its return. -/
def remaining : Option AuthorizeCall → ℕ
  | none => 0
  | some (.releasing _) | some .shedding => 1
  | some (.cleaning _ _) => 2
  | some (.waiting _) => 3
  | some (.emitting _ _) => 4
  | some (.numbered _ _) => 5
  | some (.permitted _) => 6
  | some (.reserving _) => 7

theorem eq_none_of_remaining {T : Option AuthorizeCall} (h : remaining T = 0) : T = none := by
  cases T with
  | none => rfl
  | some T => cases T <;> simp [remaining] at h

theorem remaining_setCall (a : Authorizer) (i : ℕ) (next : Option AuthorizeCall) :
    remaining ((a.setCall i next).calls.lookup i) = remaining next := by
  rw [lookup_setCall, if_pos rfl]

/-- Only a wait is not over after a step. -/
theorem remaining_step (a : Authorizer) (i : ℕ) :
    remaining ((a.step display (.step i)).calls.lookup i) ≤
      if remaining (a.calls.lookup i) = 3 then 3 else remaining (a.calls.lookup i) - 1 := by
  unfold step
  dsimp only
  cases hi : a.calls.lookup i with
  | none =>
    dsimp only
    rw [hi]
    exact Nat.zero_le _
  | some T =>
    dsimp only
    cases T with
    | reserving request =>
      unfold callStep
      rw [remaining_setCall]
      by_cases hfull : a.inFlight ≥ a.maxPending
      · rw [if_pos hfull]
        exact Nat.le_add_left 1 5
      · rw [if_neg hfull]
        exact le_rfl
    | waiting requestId =>
      unfold callStep
      rw [hi]
      exact le_rfl
    | shedding => exact (remaining_setCall _ i none).le
    | permitted request => exact (remaining_setCall ..).le
    | numbered requestId request => exact (remaining_setCall ..).le
    | emitting requestId request => exact (remaining_setCall ..).le
    | cleaning requestId resolution => exact (remaining_setCall ..).le
    | releasing resolution => exact (remaining_setCall _ i none).le

/-- When the timer has run out the wait is over. -/
theorem remaining_poll (a : Authorizer) (i : ℕ) (h : remaining (a.calls.lookup i) ≤ 3) :
    remaining ((a.step display (.poll i true)).calls.lookup i) ≤ 2 := by
  unfold step
  dsimp only
  split
  · next requestId hi =>
    unfold pollStep
    rcases (a.receivers.lookup i).getD .empty with _ | (userId | code) | _
    · exact (remaining_setCall ..).le
    · exact (remaining_setCall ..).le
    · exact (remaining_setCall ..).le
    · exact (remaining_setCall ..).le
  · next hwait =>
    rcases hi : a.calls.lookup i with _ | T
    · exact Nat.zero_le _
    · cases T with
      | waiting requestId => exact absurd hi (hwait requestId)
      | shedding => exact Nat.le_add_left 1 1
      | cleaning requestId resolution => exact le_rfl
      | releasing resolution => exact Nat.le_add_left 1 1
      | _ =>
        rw [hi] at h
        simp [remaining] at h

/-- Steps of call `i` alone, with the timer run out. -/
def finishing (i : ℕ) : List AuthorizeEvent :=
  [.step i, .step i, .step i, .step i, .poll i true, .step i, .step i]

theorem lookup_finishing (a : Authorizer) (i : ℕ) :
    (run (step display) a (finishing i)).calls.lookup i = none := by
  let r (a : Authorizer) := remaining (a.calls.lookup i)
  let next (a : Authorizer) := a.step display (.step i)
  have hstep : ∀ a, r (next a) ≤ if r a = 3 then 3 else r a - 1 :=
    fun a => remaining_step display a i
  have hmax : r a ≤ 7 := by
    show remaining (a.calls.lookup i) ≤ 7
    rcases a.calls.lookup i with _ | T
    · exact Nat.zero_le _
    · cases T <;> simp [remaining]
  have hwait : r (next (next (next (next a)))) ≤ 3 := by
    have h₁ := hstep a
    have h₂ := hstep (next a)
    have h₃ := hstep (next (next a))
    have h₄ := hstep (next (next (next a)))
    split_ifs at h₁ h₂ h₃ h₄ <;> omega
  have hpoll : r ((next (next (next (next a)))).step display (.poll i true)) ≤ 2 :=
    remaining_poll display _ i hwait
  generalize hb : (next (next (next (next a)))).step display (.poll i true) = b at hpoll
  have hzero : r (next (next b)) = 0 := by
    have h₁ := hstep b
    have h₂ := hstep (next b)
    split_ifs at h₁ h₂ <;> omega
  have hrun : run (step display) a (finishing i) = next (next b) := by
    rw [← hb, finishing]
    simp only [run_cons, run_nil, next]
  rw [hrun]
  exact eq_none_of_remaining hzero

end Authorizer

end BeamSocket.Core
