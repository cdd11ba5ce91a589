import BeamSocket.Core.Authorizer

/-!
# The answers of the authorize round trip

What a call of `authorize` returns, over every run of calls, polls and `resolve`s.
`Answered` is about the events of a run: the call was put in the table, and then came
a `resolve` of its id, the first one since. The other half is about a `resolve` that
nobody waits for: the two runs, with it and without it, differ in entries and pending
sends of calls whose receiver is gone (`Alike`), and in nothing else.

* `Authorizer.authorize_exact`: the bound of the table, that each call returns once
  and what it returns, that a `resolve` of an id nobody waits for changes no result,
  and that nothing is left when no call is running.
* `Early.first_resolve_lost`: a `resolve` that comes before the call is in the table is
  lost, although the id is already the call's.
-/

namespace BeamSocket.Core

open BeamSocket.Lib

namespace Authorizer

variable (display : IpAddr → String) {a : Authorizer} {e : AuthorizeEvent} {i j : ℕ}
  {T : AuthorizeCall} {requestId : UInt64} {outcome : AuthorizeOutcome}

/-! ## What a step does to a call, its receiver and its entry -/

/-- A resolution of the application is in the receiver of call `i`. -/
def Receives (a : Authorizer) (i : ℕ) (requestId : UInt64) (resolution : AuthorizeResolution) :
    Prop :=
  resolution.isApp = true → ∃ outcome, a.receivers.lookup i = some (.sent outcome) ∧
    resolution = outcome.resolution requestId

/-- What call `i` can be after a step, when it has not returned. -/
inductive Next (a : Authorizer) (i : ℕ) : AuthorizeCall → AuthorizeCall → Prop
  | stay (T : AuthorizeCall) : Next a i T T
  | shed (request : UpgradeRequest) : Next a i (.reserving request) .shedding
  | permit (request : UpgradeRequest) : Next a i (.reserving request) (.permitted request)
  | number (request : UpgradeRequest) :
    Next a i (.permitted request) (.numbered a.nextId request)
  | register (requestId : UInt64) (request : UpgradeRequest) :
    Next a i (.numbered requestId request) (.emitting requestId request)
  | emit (requestId : UInt64) (request : UpgradeRequest) :
    Next a i (.emitting requestId request) (.waiting requestId)
  | settle (requestId : UInt64) (resolution : AuthorizeResolution)
      (h : a.Receives i requestId resolution) :
    Next a i (.waiting requestId) (.cleaning requestId resolution)
  | clean (requestId : UInt64) (resolution : AuthorizeResolution) :
    Next a i (.cleaning requestId resolution) (.releasing resolution)

variable {T' : AuthorizeCall}

theorem Next.isRegistered (h : Next a i T T') (hT : T.isRegistered = true) :
    T'.isRegistered = true := by
  cases h <;> first | exact hT | rfl

theorem Next.entry (h : Next a i T T') (hT : T.isRegistered = true)
    (hid : T'.entry = some requestId) : T.entry = some requestId := by
  cases h with
  | stay => exact hid
  | register => cases hT
  | emit => exact hid
  | settle => exact hid
  | _ => cases hid

theorem lookup_callStep (hi : a.calls.lookup i = some T)
    (hT' : (a.callStep display i T).calls.lookup j = some T') :
    ∃ T₀, a.calls.lookup j = some T₀ ∧ Next a j T₀ T' := by
  have hset : ∀ {a' : Authorizer} {next : Option AuthorizeCall}, a'.calls = a.calls →
      (a'.setCall i next).calls.lookup j = some T' →
      (next = some T' → Next a i T T') → ∃ T₀, a.calls.lookup j = some T₀ ∧ Next a j T₀ T' := by
    intro a' next hcalls h hnext
    rw [lookup_setCall, hcalls] at h
    split_ifs at h with heq
    · subst heq
      exact ⟨T, hi, hnext h⟩
    · exact ⟨T', h, .stay T'⟩
  cases T with
  | waiting requestId => exact ⟨T', hT', .stay T'⟩
  | reserving request =>
    refine hset rfl hT' fun h => ?_
    split_ifs at h
    · cases h
      exact .shed request
    · cases h
      exact .permit request
  | shedding => exact hset rfl hT' nofun
  | permitted request => exact hset rfl hT' fun h => Option.some.inj h ▸ .number request
  | numbered requestId request =>
    exact hset rfl hT' fun h => Option.some.inj h ▸ .register requestId request
  | emitting requestId request =>
    exact hset rfl hT' fun h => Option.some.inj h ▸ .emit requestId request
  | cleaning requestId resolution =>
    exact hset rfl hT' fun h => Option.some.inj h ▸ .clean requestId resolution
  | releasing resolution => exact hset rfl hT' nofun

/-- A call is new, or it goes on. -/
theorem lookup_calls_step (hT' : (a.step display e).calls.lookup j = some T') :
    (∃ request, j = a.started ∧ T' = .reserving request) ∨
      ∃ T, a.calls.lookup j = some T ∧ Next a j T T' := by
  rcases step_cases display a e with hstep | ⟨request, rfl⟩ | ⟨i, T, rfl, hi, hstep⟩ |
    ⟨i, elapsed, requestId, _, _, resolution, rfl, hi, hstep, hreceives⟩ |
    ⟨requestId, outcome, i, rfl, hi, hstep⟩ | ⟨i, outcome, rfl, -, hstep⟩
  · rw [hstep] at hT'
    exact .inr ⟨T', hT', .stay T'⟩
  · replace hT' : (a.calls.insert a.started (.reserving request)).lookup j = some T' := hT'
    rw [lookup_insert] at hT'
    split_ifs at hT' with hj
    · exact .inl ⟨request, hj, (Option.some.inj hT').symm⟩
    · exact .inr ⟨T', hT', .stay T'⟩
  · rw [hstep] at hT'
    exact .inr (lookup_callStep display hi hT')
  · rw [hstep, settle, lookup_setCall] at hT'
    split_ifs at hT' with hj
    · cases hT'
      subst hj
      exact .inr ⟨_, hi, .settle requestId resolution hreceives⟩
    · exact .inr ⟨T', hT', .stay T'⟩
  · rw [hstep] at hT'
    exact .inr ⟨T', hT', .stay T'⟩
  · rw [hstep] at hT'
    exact .inr ⟨T', hT', .stay T'⟩

theorem lookup_dropSender_sent {receivers : Tasks Oneshot} {sender : Option ℕ}
    (h : (dropSender receivers sender).lookup i = some (.sent outcome)) :
    receivers.lookup i = some (.sent outcome) := by
  cases sender with
  | none => exact h
  | some k =>
    rw [dropSender, Tasks.lookup_modify] at h
    split_ifs at h with hk
    · rw [hk]
      rcases hrx : receivers.lookup k with _ | rx
      · rw [hrx] at h
        cases h
      · rw [hrx] at h
        cases rx <;> first | exact h | cases h
    · exact h

/-- An outcome in a receiver was there before, or was being sent. -/
theorem lookup_receivers_step
    (h : (a.step display e).receivers.lookup i = some (.sent outcome)) :
    a.receivers.lookup i = some (.sent outcome) ∨ (i, outcome) ∈ a.sending := by
  rcases step_cases display a e with hstep | ⟨request, rfl⟩ | ⟨k, T, rfl, hk, hstep⟩ |
    ⟨k, elapsed, requestId, _, _, resolution, rfl, hk, hstep, hreceives⟩ |
    ⟨requestId, outcome', k, rfl, hk, hstep⟩ | ⟨k, outcome', rfl, hmem, hstep⟩
  · rw [hstep] at h
    exact .inl h
  · exact .inl h
  · rw [hstep] at h
    cases T with
    | numbered requestId request =>
      have hold := lookup_dropSender_sent h
      rw [lookup_insert] at hold
      split_ifs at hold
      · cases hold
      · exact .inl hold
    | cleaning requestId resolution => exact .inl (lookup_dropSender_sent h)
    | _ => exact .inl h
  · rw [hstep] at h
    replace h : (a.receivers.erase k).lookup i = some (.sent outcome) := h
    rw [lookup_erase] at h
    split_ifs at h
    exact .inl h
  · rw [hstep] at h
    exact .inl h
  · rw [hstep] at h
    dsimp only at h
    rw [Tasks.lookup_modify] at h
    split_ifs at h with hik
    · subst hik
      rcases hrx : a.receivers.lookup i with _ | rx
      · rw [hrx] at h
        cases h
      · rw [hrx] at h
        cases rx with
        | empty =>
          cases h
          exact .inr hmem
        | sent o => exact .inl h
        | closed => cases h
    · exact .inl h

/-- What is being sent was so before, or its sender is taken out of the table now. -/
theorem mem_sending_step (h : (i, outcome) ∈ (a.step display e).sending) :
    (i, outcome) ∈ a.sending ∨ ∃ requestId, e = .resolve requestId outcome ∧
      a.pending.lookup requestId = some i := by
  rcases step_cases display a e with hstep | ⟨request, rfl⟩ | ⟨k, T, rfl, hk, hstep⟩ |
    ⟨k, elapsed, requestId, _, _, resolution, rfl, hk, hstep, hreceives⟩ |
    ⟨requestId, outcome', k, rfl, hk, hstep⟩ | ⟨k, outcome', rfl, hmem, hstep⟩
  · rw [hstep] at h
    exact .inl h
  · exact .inl h
  · rw [hstep] at h
    cases T <;> exact .inl h
  · rw [hstep] at h
    exact .inl h
  · rw [hstep] at h
    rcases List.mem_cons.mp h with heq | hold
    · cases heq
      exact .inr ⟨requestId, rfl, hk⟩
    · exact .inl hold
  · rw [hstep] at h
    exact .inl (List.mem_of_mem_erase h)

/-- An entry was there before and is not being resolved, or call `i` puts it there. -/
theorem lookup_pending_step (h : (a.step display e).pending.lookup requestId = some i) :
    (a.pending.lookup requestId = some i ∧ ∀ outcome, e ≠ .resolve requestId outcome) ∨
      (e = .step i ∧ ∃ request, a.calls.lookup i = some (.numbered requestId request)) := by
  cases e with
  | call request => exact .inl ⟨h, nofun⟩
  | step k =>
    unfold step at h
    dsimp only at h
    cases hk : a.calls.lookup k with
    | none =>
      rw [hk] at h
      exact .inl ⟨h, nofun⟩
    | some T =>
      rw [hk] at h
      dsimp only at h
      cases T with
      | numbered id request =>
        replace h : (a.pending.insert id k).lookup requestId = some i := h
        rw [lookup_insert] at h
        split_ifs at h with hid
        · cases h
          exact .inr ⟨rfl, request, by rw [hk, hid]⟩
        · exact .inl ⟨h, nofun⟩
      | cleaning id resolution =>
        replace h : (a.pending.erase id).lookup requestId = some i := h
        rw [lookup_erase] at h
        split_ifs at h
        exact .inl ⟨h, nofun⟩
      | _ => exact .inl ⟨h, nofun⟩
  | poll k elapsed =>
    refine .inl ⟨?_, nofun⟩
    rcases step_cases display a (.poll k elapsed) with hstep | ⟨_, he⟩ | ⟨_, _, he, _⟩ |
      ⟨_, _, _, _, _, _, _, _, hstep, _⟩ | ⟨_, _, _, he, _⟩ | ⟨_, _, he, _⟩
    · rw [hstep] at h
      exact h
    · cases he
    · cases he
    · rw [hstep] at h
      exact h
    · cases he
    · cases he
  | resolve id outcome =>
    unfold step at h
    dsimp only at h
    cases hk : a.pending.lookup id with
    | none =>
      rw [hk] at h
      refine .inl ⟨h, ?_⟩
      rintro outcome' heq
      cases heq
      rw [hk] at h
      cases h
    | some k =>
      rw [hk] at h
      dsimp only at h
      rw [lookup_erase] at h
      split_ifs at h with hid
      refine .inl ⟨h, ?_⟩
      rintro outcome' heq
      cases heq
      exact hid rfl
  | send k outcome =>
    unfold step at h
    dsimp only at h
    split_ifs at h
    · exact .inl ⟨h, nofun⟩
    · exact .inl ⟨h, nofun⟩

/-- A result was there before, or a call that had it returns, or it is one of the
    table being full. -/
theorem mem_returned_step {resolution : AuthorizeResolution}
    (h : (i, resolution) ∈ (a.step display e).returned) :
    (i, resolution) ∈ a.returned ∨ resolution.isApp = false ∨
      ∃ T, a.calls.lookup i = some T ∧ T.result = some resolution := by
  rcases step_cases display a e with hstep | ⟨request, rfl⟩ | ⟨k, T, rfl, hk, hstep⟩ |
    ⟨k, elapsed, requestId, _, _, resolution, rfl, hk, hstep, hreceives⟩ |
    ⟨requestId, outcome', k, rfl, hk, hstep⟩ | ⟨k, outcome', rfl, hmem, hstep⟩
  · rw [hstep] at h
    exact .inl h
  · exact .inl h
  · rw [hstep] at h
    cases T with
    | shedding =>
      rcases List.mem_cons.mp h with heq | hold
      · cases heq
        exact .inr (.inl rfl)
      · exact .inl hold
    | releasing res =>
      rcases List.mem_cons.mp h with heq | hold
      · cases heq
        exact .inr (.inr ⟨_, hk, rfl⟩)
      · exact .inl hold
    | _ => exact .inl h
  · rw [hstep] at h
    exact .inl h
  · rw [hstep] at h
    exact .inl h
  · rw [hstep] at h
    exact .inl h

/-! ## The resolve that a call returns -/

section Answers

variable (maxPending : ℕ) {evs : List AuthorizeEvent}

/-- After `evs`, the next step of call `i` puts it in the table under `requestId`. -/
def Registers (evs : List AuthorizeEvent) (i : ℕ) (requestId : UInt64) : Prop :=
  ∃ request, (run (step display) (new maxPending) evs).calls.lookup i =
    some (.numbered requestId request)

/-- Call `i` was put in the table, and there was no `resolve` of its id since. -/
def Awaits (evs : List AuthorizeEvent) (i : ℕ) (requestId : UInt64) : Prop :=
  ∃ before since, evs = before ++ .step i :: since ∧
    Registers display maxPending before i requestId ∧
    ∀ outcome, .resolve requestId outcome ∉ since

/-- Call `i` was put in the table, and the first `resolve` of its id since was with
    `outcome`. -/
def Answered (evs : List AuthorizeEvent) (i : ℕ) (requestId : UInt64)
    (outcome : AuthorizeOutcome) : Prop :=
  ∃ before since later, evs = before ++ .step i :: (since ++ .resolve requestId outcome :: later) ∧
    Registers display maxPending before i requestId ∧
    ∀ outcome, .resolve requestId outcome ∉ since

variable {display} {maxPending}

theorem Awaits.snoc (h : Awaits display maxPending evs i requestId)
    (he : ∀ outcome, e ≠ .resolve requestId outcome) :
    Awaits display maxPending (evs ++ [e]) i requestId := by
  obtain ⟨before, since, rfl, hregisters, hsince⟩ := h
  refine ⟨before, since ++ [e], by simp, hregisters, ?_⟩
  intro outcome hmem
  rcases List.mem_append.mp hmem with hold | hlast
  · exact hsince outcome hold
  · exact he outcome (List.mem_singleton.mp hlast).symm

theorem Awaits.answered (h : Awaits display maxPending evs i requestId)
    (outcome : AuthorizeOutcome) :
    Answered display maxPending (evs ++ [.resolve requestId outcome]) i requestId outcome := by
  obtain ⟨before, since, rfl, hregisters, hsince⟩ := h
  exact ⟨before, since, [], by simp, hregisters, hsince⟩

theorem Answered.snoc (h : Answered display maxPending evs i requestId outcome)
    (e : AuthorizeEvent) : Answered display maxPending (evs ++ [e]) i requestId outcome := by
  obtain ⟨before, since, later, rfl, hregisters, hsince⟩ := h
  exact ⟨before, since, later ++ [e], by simp, hregisters, hsince⟩

variable (display) (maxPending)

/-- Call `i` has been answered with `outcome`, whether or not it knows. -/
def Told (evs : List AuthorizeEvent) (a : Authorizer) (i : ℕ) (outcome : AuthorizeOutcome) : Prop :=
  i < a.started ∧ ∀ T, a.calls.lookup i = some T → T.isRegistered = true ∧
    ∀ requestId, T.entry = some requestId → Answered display maxPending evs i requestId outcome

/-- If `resolution` is of the application, it is the answer of call `i`. -/
def Explained (evs : List AuthorizeEvent) (i : ℕ) (resolution : AuthorizeResolution) : Prop :=
  resolution.isApp = true → ∃ requestId outcome, resolution = outcome.resolution requestId ∧
    Answered display maxPending evs i requestId outcome

/-- After `evs`: the entries are awaiting, what is sent or received is an answer, and so
    is every resolution of the application. -/
structure Traced (evs : List AuthorizeEvent) (a : Authorizer) : Prop where
  pending : ∀ requestId i, a.pending.lookup requestId = some i →
    Awaits display maxPending evs i requestId
  sending : ∀ i outcome, (i, outcome) ∈ a.sending → Told display maxPending evs a i outcome
  receivers : ∀ i outcome, a.receivers.lookup i = some (.sent outcome) →
    Told display maxPending evs a i outcome
  running : ∀ i T resolution, a.calls.lookup i = some T → T.result = some resolution →
    Explained display maxPending evs i resolution
  returned : ∀ i resolution, (i, resolution) ∈ a.returned →
    Explained display maxPending evs i resolution

theorem started_step (a : Authorizer) (e : AuthorizeEvent) :
    a.started ≤ (a.step display e).started := by
  rcases step_cases display a e with hstep | ⟨request, rfl⟩ | ⟨k, T, rfl, hk, hstep⟩ |
    ⟨k, elapsed, requestId, _, _, resolution, rfl, hk, hstep, hreceives⟩ |
    ⟨requestId, outcome', k, rfl, hk, hstep⟩ | ⟨k, outcome', rfl, hmem, hstep⟩
  · rw [hstep]
  · exact Nat.le_succ _
  · rw [hstep]
    cases T <;> exact le_rfl
  · rw [hstep]
    exact le_rfl
  · rw [hstep]
  · rw [hstep]

variable {display} {maxPending}

theorem Told.step (h : Told display maxPending evs a i outcome) (e : AuthorizeEvent) :
    Told display maxPending (evs ++ [e]) (a.step display e) i outcome := by
  obtain ⟨hstarted, htold⟩ := h
  refine ⟨lt_of_lt_of_le hstarted (started_step display a e), ?_⟩
  intro T' hT'
  rcases lookup_calls_step display hT' with ⟨_, hnew, _⟩ | ⟨T, hT, hnext⟩
  · omega
  · obtain ⟨hregistered, hanswered⟩ := htold T hT
    refine ⟨hnext.isRegistered hregistered, ?_⟩
    intro requestId hid
    exact (hanswered requestId (hnext.entry hregistered hid)).snoc e

theorem Explained.snoc {resolution : AuthorizeResolution}
    (h : Explained display maxPending evs i resolution) (e : AuthorizeEvent) :
    Explained display maxPending (evs ++ [e]) i resolution := by
  intro hisApp
  obtain ⟨requestId, outcome, hres, hanswered⟩ := h hisApp
  exact ⟨requestId, outcome, hres, hanswered.snoc e⟩

/-- An entry that is resolved is answered. -/
theorem told_of_resolve (hs : a.Sound) (h : Traced display maxPending evs a)
    (hi : a.pending.lookup requestId = some i) (outcome : AuthorizeOutcome) :
    Told display maxPending (evs ++ [.resolve requestId outcome])
      (a.step display (.resolve requestId outcome)) i outcome := by
  obtain ⟨T, hT, hid⟩ := hs.entry requestId i hi
  have hstarted : i < a.started := by
    by_contra hge
    rw [hs.started i (Nat.le_of_not_lt hge)] at hT
    cases hT
  refine ⟨lt_of_lt_of_le hstarted (started_step display a _), ?_⟩
  intro T' hT'
  have hsame : (a.step display (.resolve requestId outcome)).calls = a.calls := by
    unfold Authorizer.step
    dsimp only
    rw [hi]
  rw [hsame, hT] at hT'
  cases hT'
  constructor
  · cases T <;> first | rfl | cases hid
  · intro requestId' hid'
    rw [hid] at hid'
    cases hid'
    exact (h.pending requestId i hi).answered outcome

theorem traced_step (ha : run (step display) (new maxPending) evs = a) (hs : a.Sound)
    (h : Traced display maxPending evs a) (e : AuthorizeEvent) :
    Traced display maxPending (evs ++ [e]) (a.step display e) := by
  have hsending : ∀ i outcome, (i, outcome) ∈ a.sending →
      Told display maxPending (evs ++ [e]) (a.step display e) i outcome :=
    fun i outcome hmem => (h.sending i outcome hmem).step e
  refine ⟨?_, ?_, ?_, ?_, ?_⟩
  · intro requestId i hi
    rcases lookup_pending_step display hi with ⟨hold, hne⟩ | ⟨rfl, request, hcall⟩
    · exact (h.pending requestId i hold).snoc hne
    · exact ⟨evs, [], rfl, ⟨request, by rw [ha]; exact hcall⟩, fun _ => List.not_mem_nil⟩
  · intro i outcome hmem
    rcases mem_sending_step display hmem with hold | ⟨requestId, rfl, hi⟩
    · exact hsending i outcome hold
    · exact told_of_resolve hs h hi outcome
  · intro i outcome hrx
    rcases lookup_receivers_step display hrx with hold | hmem
    · exact (h.receivers i outcome hold).step e
    · exact hsending i outcome hmem
  · intro i T' resolution hT' hresult
    rcases lookup_calls_step display hT' with ⟨request, _, rfl⟩ | ⟨T, hT, hnext⟩
    · cases hresult
    · cases hnext with
      | stay => exact (h.running i _ resolution hT hresult).snoc e
      | clean requestId res => exact (h.running i _ resolution hT hresult).snoc e
      | settle requestId res hreceives =>
        cases hresult
        intro hisApp
        obtain ⟨outcome, hrx, hres⟩ := hreceives hisApp
        obtain ⟨-, htold⟩ := h.receivers i outcome hrx
        exact ⟨requestId, outcome, hres, ((htold _ hT).2 requestId rfl).snoc e⟩
      | _ => cases hresult
  · intro i resolution hmem
    rcases mem_returned_step display hmem with hold | happ | ⟨T, hT, hresult⟩
    · exact (h.returned i resolution hold).snoc e
    · intro hisApp
      rw [happ] at hisApp
      cases hisApp
    · exact (h.running i T resolution hT hresult).snoc e

theorem traced_run (display : IpAddr → String) (maxPending : ℕ) (evs : List AuthorizeEvent) :
    Traced display maxPending evs (run (step display) (new maxPending) evs) := by
  induction evs using List.reverseRecOn with
  | nil => exact ⟨nofun, nofun, nofun, nofun, nofun⟩
  | append_singleton evs e ih =>
    rw [run_append]
    exact traced_step rfl (sound_run display maxPending evs) ih e

end Answers

/-! ## A resolve that nobody waits for -/

/-- The receiver of call `i` is gone for good. -/
structure Gone (a : Authorizer) (i : ℕ) : Prop where
  receiver : a.receivers.lookup i = none
  started : i < a.started
  registered : ∀ T, a.calls.lookup i = some T → T.isRegistered = true

theorem lookup_dropSender_none {receivers : Tasks Oneshot} (h : receivers.lookup i = none)
    (sender : Option ℕ) : (dropSender receivers sender).lookup i = none := by
  cases sender with
  | none => exact h
  | some k =>
    rw [dropSender, Tasks.lookup_modify]
    split_ifs with hk
    · rw [← hk, h]
      rfl
    · exact h

/-- Only a step of a call that is not registered makes a receiver. -/
theorem lookup_receivers_none_step (h : a.receivers.lookup i = none)
    (hregistered : ∀ T, a.calls.lookup i = some T → T.isRegistered = true) :
    (a.step display e).receivers.lookup i = none := by
  rcases step_cases display a e with hstep | ⟨request, rfl⟩ | ⟨k, T, rfl, hk, hstep⟩ |
    ⟨k, elapsed, requestId, _, _, resolution, rfl, hk, hstep, hreceives⟩ |
    ⟨requestId, outcome', k, rfl, hk, hstep⟩ | ⟨k, outcome', rfl, hmem, hstep⟩
  · rw [hstep]
    exact h
  · exact h
  · rw [hstep]
    cases T with
    | numbered requestId request =>
      apply lookup_dropSender_none
      rw [lookup_insert, if_neg]
      · exact h
      · rintro rfl
        cases hregistered _ hk
    | cleaning requestId resolution => exact lookup_dropSender_none h _
    | _ => exact h
  · rw [hstep]
    show (a.receivers.erase k).lookup i = none
    rw [lookup_erase]
    split_ifs
    · rfl
    · exact h
  · rw [hstep]
    exact h
  · rw [hstep]
    dsimp only
    rw [Tasks.lookup_modify]
    split_ifs with hik
    · rw [← hik, h]
      rfl
    · exact h

theorem Gone.step (h : a.Gone i) (e : AuthorizeEvent) : (a.step display e).Gone i := by
  refine ⟨lookup_receivers_none_step display h.receiver h.registered,
    lt_of_lt_of_le h.started (started_step display a e), ?_⟩
  intro T' hT'
  rcases lookup_calls_step display hT' with ⟨_, hnew, _⟩ | ⟨T, hT, hnext⟩
  · have := h.started
    omega
  · exact hnext.isRegistered (h.registered T hT)

/-- Two tables, with two lists of pending sends, that differ in calls of `gone` only. -/
structure Alike (gone : ℕ → Prop) (p : AList fun _ : UInt64 => ℕ)
    (s : List (ℕ × AuthorizeOutcome)) (q : AList fun _ : UInt64 => ℕ)
    (t : List (ℕ × AuthorizeOutcome)) : Prop where
  pending : ∀ requestId, p.lookup requestId = q.lookup requestId ∨
    (∀ i, p.lookup requestId = some i → gone i) ∧ ∀ i, q.lookup requestId = some i → gone i
  sending : ∀ i outcome, ¬ gone i → s.count (i, outcome) = t.count (i, outcome)

namespace Alike

variable {gone gone' : ℕ → Prop} {p q p' q' : AList fun _ : UInt64 => ℕ}
  {s t : List (ℕ × AuthorizeOutcome)}

theorem symm (h : Alike gone p s q t) : Alike gone q t p s where
  pending requestId := (h.pending requestId).imp Eq.symm And.symm
  sending i outcome hi := (h.sending i outcome hi).symm

theorem mono (h : Alike gone p s q t) (hgone : ∀ i, gone i → gone' i) : Alike gone' p s q t where
  pending requestId := (h.pending requestId).imp_right fun hboth =>
    ⟨fun i hi => hgone i (hboth.1 i hi), fun i hi => hgone i (hboth.2 i hi)⟩
  sending i outcome hi := h.sending i outcome fun hgone' => hi (hgone i hgone')

/-- The same change of one entry on both sides. -/
theorem setEntry (h : Alike gone p s q t) (requestId : UInt64) (entry : Option ℕ)
    (hp : ∀ k, p'.lookup k = if k = requestId then entry else p.lookup k)
    (hq : ∀ k, q'.lookup k = if k = requestId then entry else q.lookup k) :
    Alike gone p' s q' t := by
  refine ⟨?_, h.sending⟩
  intro k
  rw [hp, hq]
  split_ifs
  · exact .inl rfl
  · exact h.pending k

theorem gone_right (h : Alike gone p s q t) {requestId : UInt64}
    (hp : ∀ i, p.lookup requestId = some i → gone i) (i : ℕ) (hi : q.lookup requestId = some i) :
    gone i := by
  rcases h.pending requestId with heq | ⟨-, hq⟩
  · exact hp i (heq.trans hi)
  · exact hq i hi

/-- The entry of a call that is gone is taken out on one side. -/
theorem take (h : Alike gone p s q t) (hi : p.lookup requestId = some i) (hgone : gone i)
    (outcome : AuthorizeOutcome) : Alike gone (p.erase requestId) ((i, outcome) :: s) q t := by
  have hp : ∀ k, p.lookup requestId = some k → gone k := by
    intro k hk
    rw [hi] at hk
    cases hk
    exact hgone
  refine ⟨?_, ?_⟩
  · intro k
    rw [lookup_erase]
    split_ifs with hk
    · exact .inr ⟨nofun, hk ▸ h.gone_right hp⟩
    · exact h.pending k
  · intro k outcome' hk
    rw [List.count_cons_of_ne]
    · exact h.sending k outcome' hk
    · rintro ⟨⟩
      exact hk hgone

/-- The same send is added on both sides. -/
theorem cons (h : Alike gone p s q t) (x : ℕ × AuthorizeOutcome) :
    Alike gone p (x :: s) q (x :: t) := by
  refine ⟨h.pending, ?_⟩
  intro k outcome hk
  rw [List.count_cons, List.count_cons, h.sending k outcome hk]

/-- A send to a call that is gone is done on one side. -/
theorem erase (h : Alike gone p s q t) (hgone : gone i) (outcome : AuthorizeOutcome) :
    Alike gone p (s.erase (i, outcome)) q t := by
  refine ⟨h.pending, ?_⟩
  intro k outcome' hk
  rw [List.count_erase_of_ne]
  · exact h.sending k outcome' hk
  · rintro ⟨⟩
    exact hk hgone

/-- The same send is done on both sides. -/
theorem erase_both (h : Alike gone p s q t) (x : ℕ × AuthorizeOutcome) :
    Alike gone p (s.erase x) q (t.erase x) := by
  refine ⟨h.pending, ?_⟩
  intro k outcome hk
  rw [List.count_erase, List.count_erase, h.sending k outcome hk]

theorem dropSender (h : Alike gone p s q t) (requestId : UInt64) {receivers : Tasks Oneshot}
    (hgone : ∀ i, gone i → receivers.lookup i = none) :
    dropSender receivers (q.lookup requestId) = dropSender receivers (p.lookup requestId) := by
  -- to drop the sender of a receiver that is gone does nothing
  have hnothing : ∀ {sender : Option ℕ}, (∀ i, sender = some i → gone i) →
      Authorizer.dropSender receivers sender = receivers := by
    intro sender hsender
    cases sender with
    | none => rfl
    | some i => exact Tasks.modify_of_lookup_none (hgone i (hsender i rfl)) _
  rcases h.pending requestId with heq | ⟨hp, hq⟩
  · rw [heq]
  · rw [hnothing hp, hnothing hq]

end Alike

/-- `a` with another table and other sends. -/
def withTable (a : Authorizer) (pending : AList fun _ : UInt64 => ℕ)
    (sending : List (ℕ × AuthorizeOutcome)) : Authorizer :=
  { a with pending, sending }

variable {pending : AList fun _ : UInt64 => ℕ} {sending : List (ℕ × AuthorizeOutcome)}

theorem callStep_withTable (h : Alike a.Gone a.pending a.sending pending sending)
    (hi : a.calls.lookup i = some T) :
    ∃ pending', (a.withTable pending sending).callStep display i T =
        (a.callStep display i T).withTable pending' sending ∧
      Alike a.Gone (a.callStep display i T).pending (a.callStep display i T).sending
        pending' sending := by
  cases T with
  | numbered requestId request =>
    have hempty : ∀ j, a.Gone j → (a.receivers.insert i .empty).lookup j = none := by
      intro j hj
      rw [lookup_insert, if_neg]
      · exact hj.receiver
      · rintro rfl
        cases hj.registered _ hi
    refine ⟨pending.insert requestId i, ?_, h.setEntry requestId (some i) ?_ ?_⟩
    · unfold callStep withTable
      dsimp only
      rw [h.dropSender requestId hempty]
      rfl
    · exact fun k => lookup_insert ..
    · exact fun k => lookup_insert ..
  | cleaning requestId resolution =>
    refine ⟨pending.erase requestId, ?_, h.setEntry requestId none ?_ ?_⟩
    · unfold callStep withTable
      dsimp only
      rw [h.dropSender requestId fun j hj => hj.receiver]
      rfl
    · exact fun k => lookup_erase ..
    · exact fun k => lookup_erase ..
  | _ => exact ⟨pending, rfl, h⟩

theorem pollStep_withTable (i : ℕ) (elapsed : Bool) (requestId : UInt64) :
    (a.withTable pending sending).pollStep i elapsed requestId =
      (a.pollStep i elapsed requestId).withTable pending sending := by
  have hsame : (a.withTable pending sending).receivers = a.receivers := rfl
  unfold pollStep
  rw [hsame]
  rcases (a.receivers.lookup i).getD .empty with _ | (userId | code) | _
  · cases elapsed with
    | true => rfl
    | false => rfl
  · rfl
  · rfl
  · rfl

/-- `resolve` takes an entry and leaves it to be sent, or finds none. -/
theorem step_resolve (a : Authorizer) (requestId : UInt64) (outcome : AuthorizeOutcome) :
    (a.pending.lookup requestId = none ∧ a.step display (.resolve requestId outcome) = a) ∨
      ∃ i, a.pending.lookup requestId = some i ∧ a.step display (.resolve requestId outcome) =
        a.withTable (a.pending.erase requestId) ((i, outcome) :: a.sending) := by
  unfold step
  dsimp only
  cases hi : a.pending.lookup requestId with
  | none => exact .inl ⟨rfl, rfl⟩
  | some i => exact .inr ⟨i, rfl, rfl⟩

theorem resolve_withTable (h : Alike a.Gone a.pending a.sending pending sending)
    (requestId : UInt64) (outcome : AuthorizeOutcome) :
    ∃ pending' sending', (a.withTable pending sending).step display (.resolve requestId outcome) =
        (a.step display (.resolve requestId outcome)).withTable pending' sending' ∧
      Alike a.Gone (a.step display (.resolve requestId outcome)).pending
        (a.step display (.resolve requestId outcome)).sending pending' sending' := by
  rcases step_resolve display a requestId outcome with ⟨hnone, hstep⟩ | ⟨i, hi, hstep⟩ <;>
  rcases step_resolve display (a.withTable pending sending) requestId outcome with
    ⟨hnone', hstep'⟩ | ⟨j, hj, hstep'⟩ <;>
  rw [hstep, hstep']
  · exact ⟨pending, sending, rfl, h⟩
  · -- the entry of the other side alone is of a call that is gone
    have hgone : a.Gone j := by
      rcases h.pending requestId with heq | ⟨-, hq⟩
      · rw [hnone] at heq
        exact nomatch heq.trans hj
      · exact hq j hj
    exact ⟨_, _, rfl, (h.symm.take hj hgone outcome).symm⟩
  · have hgone : a.Gone i := by
      rcases h.pending requestId with heq | ⟨hp, -⟩
      · rw [hi] at heq
        exact nomatch heq.trans hnone'
      · exact hp i hi
    exact ⟨pending, sending, rfl, h.take hi hgone outcome⟩
  · refine ⟨_, _, rfl, ?_⟩
    rcases h.pending requestId with heq | ⟨hp, hq⟩
    · rw [hi] at heq
      cases heq.trans hj
      exact (h.setEntry requestId none (fun k => lookup_erase ..) fun k => lookup_erase ..).cons _
    · exact ((h.take hi (hp i hi) outcome).symm.take hj (hq j hj) outcome).symm

/-- A send to a call whose receiver is gone. -/
theorem step_send_of_none (h : a.receivers.lookup i = none) (outcome : AuthorizeOutcome) :
    a.step display (.send i outcome) = a.withTable a.pending (a.sending.erase (i, outcome)) := by
  by_cases hmem : (i, outcome) ∈ a.sending
  · refine (if_pos hmem).trans ?_
    rw [Tasks.modify_of_lookup_none h]
    rfl
  · refine (if_neg hmem).trans ?_
    rw [List.erase_of_not_mem hmem]
    rfl

theorem send_withTable (h : Alike a.Gone a.pending a.sending pending sending) (i : ℕ)
    (outcome : AuthorizeOutcome) :
    ∃ pending' sending', (a.withTable pending sending).step display (.send i outcome) =
        (a.step display (.send i outcome)).withTable pending' sending' ∧
      Alike a.Gone (a.step display (.send i outcome)).pending
        (a.step display (.send i outcome)).sending pending' sending' := by
  by_cases hgone : a.Gone i
  · have hgone' : (a.withTable pending sending).receivers.lookup i = none := hgone.receiver
    rw [step_send_of_none display hgone.receiver, step_send_of_none display hgone']
    exact ⟨_, _, rfl, ((h.erase hgone outcome).symm.erase hgone outcome).symm⟩
  · have hmem : (i, outcome) ∈ a.sending ↔ (i, outcome) ∈ sending := by
      rw [← List.count_pos_iff, h.sending i outcome hgone, List.count_pos_iff]
    by_cases hsending : (i, outcome) ∈ a.sending
    · have hother : (i, outcome) ∈ (a.withTable pending sending).sending := hmem.mp hsending
      unfold step
      dsimp only
      rw [if_pos hsending, if_pos hother]
      exact ⟨_, _, rfl, h.erase_both _⟩
    · have hother : (i, outcome) ∉ (a.withTable pending sending).sending :=
        fun hother => hsending (hmem.mpr hother)
      unfold step
      dsimp only
      rw [if_neg hsending, if_neg hother]
      exact ⟨pending, sending, rfl, h⟩

/-- The two sides stay alike. -/
theorem step_withTable (h : Alike a.Gone a.pending a.sending pending sending)
    (e : AuthorizeEvent) :
    ∃ pending' sending', (a.withTable pending sending).step display e =
        (a.step display e).withTable pending' sending' ∧
      Alike (a.step display e).Gone (a.step display e).pending (a.step display e).sending
        pending' sending' := by
  suffices hsame : ∃ pending' sending', (a.withTable pending sending).step display e =
      (a.step display e).withTable pending' sending' ∧
      Alike a.Gone (a.step display e).pending (a.step display e).sending pending' sending' by
    obtain ⟨pending', sending', heq, halike⟩ := hsame
    exact ⟨pending', sending', heq, halike.mono fun i hi => hi.step display e⟩
  cases e with
  | call request => exact ⟨pending, sending, rfl, h⟩
  | step i =>
    have hcalls : (a.withTable pending sending).calls = a.calls := rfl
    unfold step
    dsimp only
    rw [hcalls]
    cases hi : a.calls.lookup i with
    | none => exact ⟨pending, sending, rfl, h⟩
    | some T =>
      obtain ⟨pending', heq, halike⟩ := callStep_withTable display h hi
      exact ⟨pending', sending, heq, halike⟩
  | poll i elapsed =>
    have hcalls : (a.withTable pending sending).calls = a.calls := rfl
    unfold step
    dsimp only
    rw [hcalls]
    split
    · next requestId hi =>
      refine ⟨pending, sending, pollStep_withTable i elapsed requestId, ?_⟩
      rcases pollStep_cases a i elapsed requestId with hstep | ⟨_, _, _, hstep, -⟩
      · rw [hstep]
        exact h
      · rw [hstep]
        exact h
    · exact ⟨pending, sending, rfl, h⟩
  | resolve requestId outcome => exact resolve_withTable display h requestId outcome
  | send i outcome => exact send_withTable display h i outcome

theorem returned_run_withTable (h : Alike a.Gone a.pending a.sending pending sending)
    (evs : List AuthorizeEvent) :
    (run (step display) (a.withTable pending sending) evs).returned =
      (run (step display) a evs).returned := by
  induction evs generalizing a pending sending with
  | nil => rfl
  | cons e evs ih =>
    obtain ⟨pending', sending', heq, halike⟩ := step_withTable display h e
    rw [run_cons, run_cons, heq]
    exact ih halike

/-- A `resolve` of an id that is not in the table, or is there for a call that does not
    wait any more. -/
theorem returned_resolve (hs : a.Sound)
    (h : ∀ i, a.pending.lookup requestId = some i → a.receivers.lookup i = none)
    (outcome : AuthorizeOutcome) (evs : List AuthorizeEvent) :
    (run (step display) (a.step display (.resolve requestId outcome)) evs).returned =
      (run (step display) a evs).returned := by
  have hrefl : Alike a.Gone a.pending a.sending a.pending a.sending :=
    ⟨fun _ => .inl rfl, fun _ _ _ => rfl⟩
  rcases step_resolve display a requestId outcome with ⟨-, hstep⟩ | ⟨i, hi, hstep⟩
  · rw [hstep]
  · rw [hstep]
    obtain ⟨T, hT, hid⟩ := hs.entry requestId i hi
    have hgone : a.Gone i := by
      refine ⟨h i hi, ?_, ?_⟩
      · by_contra hge
        rw [hs.started i (Nat.le_of_not_lt hge)] at hT
        cases hT
      · intro T' hT'
        rw [hT] at hT'
        cases hT'
        cases T <;> first | rfl | cases hid
    exact returned_run_withTable display (hrefl.take hi hgone outcome).symm evs

/-! ## The round trip -/

/-- After any steps of any calls, `resolve`s and timers: the table is within its bound;
    a call has one result when it is over and none before, and it can always come to an
    end; an `Accept`, or a `Reject` of the application, is the outcome of the first
    `resolve` with the call's id since the call was put in the table; a `resolve` with
    an id that nobody waits for changes no result, now or later; and when no call is
    running, the table is empty and the counter zero. -/
theorem authorize_exact (maxPending : ℕ) (evs : List AuthorizeEvent) :
    let a := run (step display) (new maxPending) evs
    a.pending.entries.length ≤ maxPending ∧
    (∀ i, a.results i = if i < a.started ∧ i ∉ a.calls then 1 else 0) ∧
    (∀ i, i ∉ (run (step display) a (finishing i)).calls) ∧
    (∀ i resolution, (i, resolution) ∈ a.returned → resolution.isApp = true →
      ∃ requestId outcome, resolution = outcome.resolution requestId ∧
        Answered display maxPending evs i requestId outcome) ∧
    (∀ requestId outcome,
      (∀ i, a.pending.lookup requestId = some i → a.receivers.lookup i = none) →
      ∀ later, (run (step display) (a.step display (.resolve requestId outcome)) later).returned =
        (run (step display) a later).returned) ∧
    (a.calls = ∅ → a.pending = ∅ ∧ a.inFlight = 0) := by
  intro a
  have hs : a.Sound := sound_run display maxPending evs
  have hmax : a.maxPending = maxPending := maxPending_run display maxPending evs
  have htraced : Traced display maxPending evs a := traced_run display maxPending evs
  clear_value a
  refine ⟨?_, ?_, ?_, ?_, ?_, hs.idle⟩
  · exact hmax ▸ hs.length_pending_le.trans hs.permitted
  · intro i
    have honce := hs.once i
    by_cases hi : i ∈ a.calls
    · have hsome : (a.calls.lookup i).isSome := AList.lookup_isSome.mpr hi
      rw [if_neg fun h => h.2 hi]
      rw [if_pos hsome] at honce
      split_ifs at honce
      omega
    · have hnone : ¬ (a.calls.lookup i).isSome := fun h => hi (AList.lookup_isSome.mp h)
      rw [if_neg hnone] at honce
      rw [← Nat.add_zero (a.results i), honce]
      exact if_congr (by simp [hi]) rfl rfl
  · intro i
    exact AList.lookup_eq_none.mp (lookup_finishing display a i)
  · intro i resolution hmem
    exact htraced.returned i resolution hmem
  · intro requestId outcome hnobody later
    exact returned_resolve display hs hnobody outcome later

end Authorizer

/-! ## An early resolve -/

namespace Early

/-- A request for `/` without headers. -/
def request : UpgradeRequest := ⟨.v4 0x0a000001, "/", []⟩

/-- Call 0 has taken the id 1 and is not yet in the table. -/
def numbered : List AuthorizeEvent := [.call request, .step 0, .step 0]

/-- The first `resolve` comes now, a second one when the call is in the table. -/
def evs : List AuthorizeEvent :=
  numbered ++ [.resolve 1 (.reject 4001), .step 0, .step 0, .resolve 1 (.accept (some "ada")),
    .send 0 (.accept (some "ada")), .poll 0 false, .step 0, .step 0]

theorem first_resolve_lost :
    (run (Authorizer.step fun _ => "10.0.0.1") (.new 1) numbered).calls.lookup 0 =
      some (.numbered 1 request) ∧
    evs.find? (fun e => e matches .resolve 1 _) = some (.resolve 1 (.reject 4001)) ∧
    (run (Authorizer.step fun _ => "10.0.0.1") (.new 1) evs).returned =
      [(0, .accept (some "ada") 1)] := by
  exact ⟨rfl, rfl, rfl⟩

end Early

end BeamSocket.Core
