import BeamSocket.Core.AuthorizeAnswers

/-!
# Request ids

What an `Authorizer` has numbered, over a run: which id each call was given, and with whose
request the application is asked about it. Ids come from a counter of 64 bits
(`crates/core/src/identity.rs`, line 189), so they are distinct for as long as it has not
wrapped around.

* `Numbering.numbered_step`: the ids of the calls and the events that are emitted.
* `Numbering.Numbered.owner`: an id has one call.
-/

namespace BeamSocket.Core

open BeamSocket.Lib

/-- The id of a call that has been numbered. -/
def AuthorizeCall.requestId : AuthorizeCall → Option UInt64
  | numbered requestId _ | emitting requestId _ | waiting requestId | cleaning requestId _ =>
    some requestId
  | _ => none

/-- The request, until it is emitted. -/
def AuthorizeCall.request : AuthorizeCall → Option UpgradeRequest
  | reserving request | permitted request | numbered _ request | emitting _ request => some request
  | _ => none

/-- The call has emitted its request. -/
def AuthorizeCall.isEmitted : AuthorizeCall → Bool
  | waiting _ | cleaning _ _ | releasing _ => true
  | _ => false

/-- The request that a call comes with. -/
def AuthorizeEvent.request : AuthorizeEvent → List UpgradeRequest
  | .call request => [request]
  | _ => []

/-- The id of an authorize request. -/
def EngineEvent.requestId : EngineEvent → Option UInt64
  | .authorize requestId _ _ _ => some requestId
  | _ => none

/-- The event for a request. -/
def authorizeEvent (display : IpAddr → String) (requestId : UInt64) (request : UpgradeRequest) :
    EngineEvent :=
  .authorize requestId (display request.clientIp) request.url request.headers

namespace Authorizer

variable {a : Authorizer} {e : AuthorizeEvent} {i j : ℕ} {T T' : AuthorizeCall}

/-- The id that a step gives out, and the call it is for. -/
def issues (a : Authorizer) : AuthorizeEvent → List (UInt64 × ℕ)
  | .step i =>
    match a.calls.lookup i with
    | some (.permitted _) => [(a.nextId, i)]
    | _ => []
  | _ => []

theorem issues_step {request : UpgradeRequest} (hi : a.calls.lookup i = some (.permitted request)) :
    a.issues (.step i) = [(a.nextId, i)] := by
  unfold issues
  dsimp only
  rw [hi]

variable (display : IpAddr → String)

/-- The counter goes up with every id. -/
theorem nextId_step (a : Authorizer) (e : AuthorizeEvent) :
    (a.issues e = [] ∧ (a.step display e).nextId = a.nextId) ∨
      ∃ i, a.issues e = [(a.nextId, i)] ∧ (a.step display e).nextId = a.nextId + 1 := by
  cases e with
  | step i =>
    unfold issues step
    dsimp only
    cases hi : a.calls.lookup i with
    | none => exact .inl ⟨rfl, rfl⟩
    | some T =>
      cases T with
      | permitted request => exact .inr ⟨i, rfl, rfl⟩
      | _ => exact .inl ⟨rfl, rfl⟩
  | call request => exact .inl ⟨rfl, rfl⟩
  | poll i elapsed =>
    refine .inl ⟨rfl, ?_⟩
    rcases step_cases display a (.poll i elapsed) with hstep | ⟨_, he⟩ | ⟨_, _, he, _⟩ |
      ⟨_, _, _, _, _, _, _, _, hstep, _⟩ | ⟨_, _, _, he, _⟩ | ⟨_, _, he, _⟩
    · rw [hstep]
    · cases he
    · cases he
    · rw [hstep]
      rfl
    · cases he
    · cases he
  | resolve requestId outcome =>
    refine .inl ⟨rfl, ?_⟩
    unfold step
    dsimp only
    split <;> rfl
  | send i outcome =>
    refine .inl ⟨rfl, ?_⟩
    unfold step
    dsimp only
    split_ifs <;> rfl

/-- A call that is numbered now takes the id that is given out. -/
theorem mem_issues {request : UpgradeRequest} {requestId : UInt64}
    (hT : a.calls.lookup j = some (.permitted request))
    (hT' : (a.step display e).calls.lookup j = some (.numbered requestId request)) :
    (requestId, j) ∈ a.issues e := by
  rcases step_cases display a e with hstep | ⟨request', rfl⟩ | ⟨i, U, rfl, hi, hstep⟩ |
    ⟨i, elapsed, id, _, _, resolution, rfl, hi, hstep, -⟩ |
    ⟨id, outcome, i, rfl, hi, hstep⟩ | ⟨i, outcome, rfl, -, hstep⟩
  · rw [hstep] at hT'
    cases hT.symm.trans hT'
  · replace hT' : (a.calls.insert a.started (.reserving request')).lookup j = _ := hT'
    rw [lookup_insert] at hT'
    split_ifs at hT'
    · cases hT'
    · cases hT.symm.trans hT'
  · rw [hstep] at hT'
    by_cases hij : j = i
    · subst hij
      rw [hT] at hi
      cases hi
      rw [callStep, lookup_setCall, if_pos rfl] at hT'
      cases hT'
      rw [issues_step hT]
      exact List.mem_singleton_self _
    · -- another call stepped
      have hsame : (a.callStep display i U).calls.lookup j = a.calls.lookup j := by
        cases U with
        | waiting => rfl
        | _ => exact (lookup_setCall _ i j _).trans (if_neg hij)
      cases hT.symm.trans (hsame.symm.trans hT')
  · rw [hstep, settle, lookup_setCall] at hT'
    split_ifs at hT'
    · cases hT'
    · cases hT.symm.trans hT'
  · rw [hstep] at hT'
    cases hT.symm.trans hT'
  · rw [hstep] at hT'
    cases hT.symm.trans hT'

/-- What a step emits: the request of a call that is about to emit it. -/
theorem emitted_step (a : Authorizer) (e : AuthorizeEvent) :
    (a.step display e).emitted = a.emitted ∨
      ∃ i requestId request, e = .step i ∧ a.calls.lookup i = some (.emitting requestId request) ∧
        (a.step display e).emitted = a.emitted ++ [authorizeEvent display requestId request] ∧
        (a.step display e).calls.lookup i = some (.waiting requestId) := by
  rcases step_cases display a e with hstep | ⟨request', rfl⟩ | ⟨i, U, rfl, hi, hstep⟩ |
    ⟨i, elapsed, id, _, _, resolution, rfl, hi, hstep, -⟩ |
    ⟨id, outcome, i, rfl, hi, hstep⟩ | ⟨i, outcome, rfl, -, hstep⟩
  · exact .inl (by rw [hstep])
  · exact .inl rfl
  · rw [hstep]
    cases U with
    | emitting requestId request =>
      exact .inr ⟨i, requestId, request, rfl, hi, rfl, (lookup_setCall ..).trans (if_pos rfl)⟩
    | _ => exact .inl rfl
  · exact .inl (by rw [hstep]; rfl)
  · exact .inl (by rw [hstep])
  · exact .inl (by rw [hstep])

theorem getElem?_emitted_step {k : ℕ} {ev : EngineEvent} (h : a.emitted[k]? = some ev)
    (e : AuthorizeEvent) : (a.step display e).emitted[k]? = some ev := by
  rcases a.emitted_step display e with hsame | ⟨_, _, _, -, -, happend, -⟩
  · rw [hsame]
    exact h
  · rw [happend, List.getElem?_append_left (List.getElem?_eq_some_iff.mp h).1]
    exact h

/-- A result stays. -/
theorem mem_returned_of_mem {r : ℕ × AuthorizeResolution} (h : r ∈ a.returned)
    (e : AuthorizeEvent) : r ∈ (a.step display e).returned := by
  rcases step_cases display a e with hstep | ⟨request', rfl⟩ | ⟨i, U, rfl, hi, hstep⟩ |
    ⟨i, elapsed, id, _, _, resolution, rfl, hi, hstep, -⟩ |
    ⟨id, outcome, i, rfl, hi, hstep⟩ | ⟨i, outcome, rfl, -, hstep⟩
  · rw [hstep]
    exact h
  · exact h
  · rw [hstep]
    cases U with
    | shedding => exact List.mem_cons_of_mem _ h
    | releasing => exact List.mem_cons_of_mem _ h
    | _ => exact h
  · rw [hstep]
    exact h
  · rw [hstep]
    exact h
  · rw [hstep]
    exact h

theorem requests_step (a : Authorizer) (e : AuthorizeEvent) :
    (a.step display e).started = a.started + e.request.length := by
  rcases step_cases display a e with hstep | ⟨request', rfl⟩ | ⟨i, U, rfl, hi, hstep⟩ |
    ⟨i, elapsed, id, _, _, resolution, rfl, hi, hstep, -⟩ |
    ⟨id, outcome, i, rfl, hi, hstep⟩ | ⟨i, outcome, rfl, -, hstep⟩
  · cases e with
    | call request =>
      have := congrArg started hstep
      simp [step] at this
    | _ => rw [hstep]; rfl
  · rfl
  · rw [hstep]
    cases U <;> rfl
  · rw [hstep]
    rfl
  · rw [hstep]
    rfl
  · rw [hstep]
    rfl

/-- A call is new and comes with its request, or it goes on. -/
theorem lookup_calls_step_of_sound (hs : a.Sound)
    (hT' : (a.step display e).calls.lookup j = some T') :
    (∃ request, e = .call request ∧ j = a.started ∧ T' = .reserving request) ∨
      ∃ T, a.calls.lookup j = some T ∧ Next a j T T' := by
  rcases lookup_calls_step display hT' with ⟨request, hj, -⟩ | hnext
  · left
    have hlt : j < (a.step display e).started := by
      by_contra hge
      rw [(sound_step display a e hs).started j (by omega)] at hT'
      cases hT'
    rw [requests_step, hj] at hlt
    cases e with
    | call request =>
      replace hT' : (a.calls.insert a.started (.reserving request)).lookup j = some T' := hT'
      rw [lookup_insert, if_pos hj] at hT'
      exact ⟨request, rfl, hj, (Option.some.inj hT').symm⟩
    | _ => exact absurd hlt (lt_irrefl _)
  · exact .inr hnext

end Authorizer

/-- An authorizer, the requests of its calls and the ids they were given. -/
structure Numbering where
  authorizer : Authorizer
  /-- The request of call `i`, at index `i`. -/
  requests : List UpgradeRequest
  /-- Ids with their calls, newest first. -/
  issued : List (UInt64 × ℕ)

namespace Numbering

/-- An authorizer that was never called. -/
def new (maxPending : ℕ) : Numbering := ⟨.new maxPending, [], []⟩

variable (display : IpAddr → String)

/-- One step, with its entries in the logs. -/
def step (s : Numbering) (e : AuthorizeEvent) : Numbering :=
  { authorizer := s.authorizer.step display e
    requests := s.requests ++ e.request
    issued := s.authorizer.issues e ++ s.issued }

/-- `requestId` was given to call `i`, which came with `request`. -/
def Asked (s : Numbering) (requestId : UInt64) (i : ℕ) (request : UpgradeRequest) : Prop :=
  (requestId, i) ∈ s.issued ∧ s.requests[i]? = some request

/-- `ev` is the request of the call that its id was given to. -/
def Emitted (s : Numbering) (ev : EngineEvent) : Prop :=
  ∃ requestId i request, ev = authorizeEvent display requestId request ∧
    s.Asked requestId i request ∧
    ∀ T, s.authorizer.calls.lookup i = some T → T.isEmitted = true

/-- The ids are `1, 2, 3, …` in the order of their calls; a call and its result go by the id
    of the call; and every event is the request of the call that its id was given to, emitted
    once. -/
structure Numbered (s : Numbering) : Prop where
  nextId : s.authorizer.nextId.toNat = s.issued.length + 1
  ids : s.issued.map (fun p => p.1.toNat) = (List.range' 1 s.issued.length).reverse
  requests : s.requests.length = s.authorizer.started
  owned : ∀ requestId i, (requestId, i) ∈ s.issued → i < s.authorizer.started
  request : ∀ i T request, s.authorizer.calls.lookup i = some T → T.request = some request →
    s.requests[i]? = some request
  running : ∀ i T requestId, s.authorizer.calls.lookup i = some T →
    (T.requestId = some requestId ∨ ∃ userId, T.result = some (.accept userId requestId)) →
    (requestId, i) ∈ s.issued
  returned : ∀ i userId requestId, (i, .accept userId requestId) ∈ s.authorizer.returned →
    (requestId, i) ∈ s.issued
  emitted : ∀ ev ∈ s.authorizer.emitted, s.Emitted display ev
  once : (s.authorizer.emitted.filterMap EngineEvent.requestId).Nodup

variable {display} {s : Numbering} {e : AuthorizeEvent}

/-- An id has one call. -/
theorem Numbered.owner (h : s.Numbered display) {requestId : UInt64} {i j : ℕ}
    (hi : (requestId, i) ∈ s.issued) (hj : (requestId, j) ∈ s.issued) : i = j := by
  have hnodup : (s.issued.map fun p => p.1.toNat).Nodup := by
    rw [h.ids, List.nodup_reverse]
    exact List.nodup_range'
  have heq := List.inj_on_of_nodup_map hnodup hi hj rfl
  exact congrArg Prod.snd heq

/-- An id is emitted once. -/
theorem Numbered.emitted_inj (h : s.Numbered display) {j k : ℕ} {requestId : UInt64}
    {request request' : UpgradeRequest}
    (hj : s.authorizer.emitted[j]? = some (authorizeEvent display requestId request))
    (hk : s.authorizer.emitted[k]? = some (authorizeEvent display requestId request')) : j = k := by
  have hpairwise := List.pairwise_filterMap.mp h.once
  have hlt : ∀ {j k : ℕ} {request request' : UpgradeRequest},
      s.authorizer.emitted[j]? = some (authorizeEvent display requestId request) →
      s.authorizer.emitted[k]? = some (authorizeEvent display requestId request') → ¬j < k := by
    intro j k request request' hj hk hlt
    obtain ⟨hjlt, hj⟩ := List.getElem?_eq_some_iff.mp hj
    obtain ⟨hklt, hk⟩ := List.getElem?_eq_some_iff.mp hk
    refine List.pairwise_iff_getElem.mp hpairwise j k hjlt hklt hlt requestId ?_ requestId ?_ rfl
    · rw [hj]
      rfl
    · rw [hk]
      rfl
  have := hlt hj hk
  have := hlt hk hj
  omega

theorem Asked.step {requestId : UInt64} {i : ℕ} {request : UpgradeRequest}
    (h : s.Asked requestId i request) (e : AuthorizeEvent) :
    (s.step display e).Asked requestId i request := by
  refine ⟨List.mem_append_right _ h.1, ?_⟩
  have hlt : i < s.requests.length := (List.getElem?_eq_some_iff.mp h.2).1
  show (s.requests ++ e.request)[i]? = some request
  rw [List.getElem?_append_left hlt]
  exact h.2

theorem numbered_new (maxPending : ℕ) : (new maxPending).Numbered display where
  nextId := rfl
  ids := rfl
  requests := rfl
  owned := nofun
  request := nofun
  running := nofun
  returned := nofun
  emitted := nofun
  once := List.nodup_nil

/-- The ids after a step, unless the counter wraps around. -/
theorem Numbered.ids_step (h : s.Numbered display) (hlt : s.issued.length + 2 < 2 ^ 64) :
    (s.step display e).authorizer.nextId.toNat = (s.step display e).issued.length + 1 ∧
      (s.step display e).issued.map (fun p => p.1.toNat) =
        (List.range' 1 (s.step display e).issued.length).reverse := by
  have hnext := h.nextId
  rcases s.authorizer.nextId_step display e with ⟨hnone, hsame⟩ | ⟨i, hone, hsucc⟩
  · have hissued : (s.step display e).issued = s.issued := by
      show s.authorizer.issues e ++ s.issued = s.issued
      rw [hnone, List.nil_append]
    rw [hissued]
    exact ⟨(congrArg UInt64.toNat hsame).trans hnext, h.ids⟩
  · have hissued : (s.step display e).issued = (s.authorizer.nextId, i) :: s.issued := by
      show s.authorizer.issues e ++ s.issued = _
      rw [hone]
      rfl
    rw [hissued, List.length_cons]
    constructor
    · have htoNat := congrArg UInt64.toNat hsucc
      rw [UInt64.toNat_add, hnext] at htoNat
      refine htoNat.trans (Nat.mod_eq_of_lt ?_)
      exact hlt
    · rw [List.map_cons, h.ids, List.range'_concat, List.reverse_append, hnext]
      simp [Nat.add_comm]

theorem Numbered.owned_step (h : s.Numbered display) (hsound : s.authorizer.Sound)
    {requestId : UInt64} {i : ℕ} (hi : (requestId, i) ∈ (s.step display e).issued) :
    i < (s.step display e).authorizer.started := by
  have hle : s.authorizer.started ≤ (s.step display e).authorizer.started :=
    Authorizer.started_step display s.authorizer e
  rcases List.mem_append.mp hi with hnew | hold
  · cases e with
    | step k =>
      unfold Authorizer.issues at hnew
      dsimp only at hnew
      split at hnew
      · next request hk =>
        cases List.mem_singleton.mp hnew
        have hlt : i < s.authorizer.started := by
          by_contra hge
          rw [hsound.started i (by omega)] at hk
          cases hk
        omega
      · cases hnew
    | _ => cases hnew
  · have := h.owned requestId i hold
    omega

theorem Numbered.request_step (h : s.Numbered display) (hsound : s.authorizer.Sound) {i : ℕ}
    {T' : AuthorizeCall} {request : UpgradeRequest}
    (hT' : (s.step display e).authorizer.calls.lookup i = some T')
    (hrequest : T'.request = some request) : (s.step display e).requests[i]? = some request := by
  show (s.requests ++ e.request)[i]? = some request
  rcases Authorizer.lookup_calls_step_of_sound display hsound hT' with
    ⟨request', rfl, hi, rfl⟩ | ⟨T, hT, hnext⟩
  · cases hrequest
    rw [hi, ← h.requests]
    exact List.getElem?_concat_length
  · have hold : T.request = some request := by
      cases hnext with
      | stay => exact hrequest
      | permit => exact hrequest
      | number => exact hrequest
      | register => exact hrequest
      | _ => cases hrequest
    have hget := h.request i T request hT hold
    rw [List.getElem?_append_left (List.getElem?_eq_some_iff.mp hget).1]
    exact hget

/-- A resolution of the application goes by the id of its call. -/
theorem receives_accept {a : Authorizer} {i : ℕ} {id requestId : UInt64} {userId : Option UserId}
    (h : a.Receives i id (.accept userId requestId)) : requestId = id := by
  obtain ⟨outcome, -, hres⟩ := h rfl
  cases outcome with
  | accept _ => exact (AuthorizeResolution.accept.inj hres).2
  | reject _ => cases hres

theorem Numbered.running_step (h : s.Numbered display) (hsound : s.authorizer.Sound) {i : ℕ}
    {T' : AuthorizeCall} {requestId : UInt64}
    (hT' : (s.step display e).authorizer.calls.lookup i = some T')
    (hid : T'.requestId = some requestId ∨ ∃ userId, T'.result = some (.accept userId requestId)) :
    (requestId, i) ∈ (s.step display e).issued := by
  rcases Authorizer.lookup_calls_step_of_sound display hsound hT' with
    ⟨request', rfl, hi, rfl⟩ | ⟨T, hT, hnext⟩
  · rcases hid with hid | ⟨_, hid⟩ <;> cases hid
  · have hold := h.running i T requestId hT
    cases hnext with
    | number request =>
      rcases hid with hid | ⟨_, hid⟩
      · cases hid
        exact List.mem_append_left _ (Authorizer.mem_issues display hT hT')
      · cases hid
    | settle id resolution hreceives =>
      refine List.mem_append_right _ (hold (.inl ?_))
      rcases hid with hid | ⟨userId, hid⟩
      · exact hid
      · cases hid
        rw [receives_accept hreceives]
        rfl
    | clean id resolution =>
      rcases hid with hid | hid
      · cases hid
      · exact List.mem_append_right _ (hold (.inr hid))
    | stay => exact List.mem_append_right _ (hold hid)
    | register => exact List.mem_append_right _ (hold hid)
    | emit => exact List.mem_append_right _ (hold hid)
    | _ => rcases hid with hid | ⟨_, hid⟩ <;> cases hid

/-- A call that has emitted its request does not go back. -/
theorem isEmitted_step {i : ℕ} {T' : AuthorizeCall} (hlt : i < s.authorizer.started)
    (h : ∀ T, s.authorizer.calls.lookup i = some T → T.isEmitted = true)
    (hT' : (s.step display e).authorizer.calls.lookup i = some T') : T'.isEmitted = true := by
  rcases Authorizer.lookup_calls_step display hT' with ⟨_, hi, _⟩ | ⟨T, hT, hnext⟩
  · omega
  · have hemitted := h T hT
    cases hnext with
    | stay => exact hemitted
    | settle => rfl
    | clean => rfl
    | _ => cases hemitted

theorem Numbered.emitted_step (h : s.Numbered display) {ev : EngineEvent}
    (hev : ev ∈ (s.step display e).authorizer.emitted) :
    (s.step display e).Emitted display ev := by
  have hold : ev ∈ s.authorizer.emitted → (s.step display e).Emitted display ev := by
    intro hmem
    obtain ⟨requestId, i, request, heq, hasked, hcall⟩ := h.emitted ev hmem
    exact ⟨requestId, i, request, heq, hasked.step e,
      fun T hT => isEmitted_step (h.owned _ _ hasked.1) hcall hT⟩
  rcases s.authorizer.emitted_step display e with
    hsame | ⟨i, requestId, request, rfl, hi, happend, hwaiting⟩
  · exact hold (hsame ▸ hev)
  · replace hev : ev ∈ (s.authorizer.step display (.step i)).emitted := hev
    rw [happend] at hev
    rcases List.mem_append.mp hev with hev | hev
    · exact hold hev
    · have hasked : s.Asked requestId i request :=
        ⟨h.running i _ requestId hi (.inl rfl), h.request i _ request hi rfl⟩
      refine ⟨requestId, i, request, List.mem_singleton.mp hev, hasked.step _, ?_⟩
      intro T hT
      cases hwaiting.symm.trans hT
      rfl

theorem Numbered.once_step (h : s.Numbered display) :
    ((s.step display e).authorizer.emitted.filterMap EngineEvent.requestId).Nodup := by
  rcases s.authorizer.emitted_step display e with
    hsame | ⟨i, requestId, request, rfl, hi, happend, -⟩
  · show ((s.authorizer.step display e).emitted.filterMap _).Nodup
    rw [hsame]
    exact h.once
  · show ((s.authorizer.step display (.step i)).emitted.filterMap _).Nodup
    rw [happend, List.filterMap_append, List.nodup_append]
    refine ⟨h.once, List.nodup_singleton requestId, ?_⟩
    rintro id hid id' hid' rfl
    cases List.mem_singleton.mp hid'
    -- the event that has the id already is one of this call, which has yet to emit it
    obtain ⟨ev, hev, hevId⟩ := List.mem_filterMap.mp hid
    obtain ⟨id', j, _, rfl, hasked, hcall⟩ := h.emitted ev hev
    cases hevId
    cases h.owner hasked.1 (h.running i _ requestId hi (.inl rfl))
    cases hcall _ hi

theorem numbered_step (h : s.Numbered display) (hsound : s.authorizer.Sound)
    (hlt : s.issued.length + 2 < 2 ^ 64) : (s.step display e).Numbered display where
  nextId := (h.ids_step hlt).1
  ids := (h.ids_step hlt).2
  requests := by
    show (s.requests ++ e.request).length = (s.authorizer.step display e).started
    rw [List.length_append, h.requests, Authorizer.requests_step]
  owned _ _ := h.owned_step hsound
  request _ _ _ := h.request_step hsound
  running _ _ _ := h.running_step hsound
  returned i userId requestId hmem := by
    rcases Authorizer.mem_returned_step display hmem with hold | happ | ⟨T, hT, hresult⟩
    · exact List.mem_append_right _ (h.returned i userId requestId hold)
    · cases happ
    · exact List.mem_append_right _ (h.running i T requestId hT (.inr ⟨userId, hresult⟩))
  emitted _ := h.emitted_step
  once := h.once_step

end Numbering

end BeamSocket.Core
