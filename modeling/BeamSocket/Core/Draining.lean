import BeamSocket.Core.Lifecycle

/-!
# Graceful shutdown

Model of `Engine::close` (`crates/core/src/engine.rs`, lines 1055–1086) next to any number
of connections at any point of their lives. `close` raises the draining flag of the gate,
asks every connection that `handles` lists to close, waits until it reads the registry as
empty or its time is up, and asks once more, now without grace. `handles` and `is_empty` go
from shard to shard and hold one lock at a time, so connections come and go between the
shards; and an upgrade that the gate has let pass before the flag was raised can still
register itself behind the back of `close`.

* `Lifecycle.Entering`: an upgrade past the draining check that is not yet registered.
* `Closing.close_asks_all`: such an upgrade is the only way around `close`.
-/

namespace BeamSocket.Core

open BeamSocket.Lib

/-- `CLOSE_GOING_AWAY`. -/
def closeGoingAway : UInt16 := 1001

/-- The two sweeps of `close`. -/
inductive Sweep
  | first
  /-- The wait is over; `empty` if the registry was read as empty. -/
  | last (empty : Bool)
  deriving DecidableEq, Repr

/-- Where `close` is, behind the raised flag. -/
inductive CloserPoint
  /-- In `handles`, before shard `k`. -/
  | collecting (sweep : Sweep) (k : ℕ) (ids : List ConnectionId)
  /-- Before `initiate_close` on the handles of `ids`. -/
  | asking (sweep : Sweep) (ids : List ConnectionId)
  /-- In `is_empty`, before shard `k`. -/
  | counting (k total : ℕ)
  /-- Before `shutdown_tx.send`. -/
  | stopped (empty : Bool)
  deriving DecidableEq, Repr

/-- The engine while it is being closed. -/
structure Closing (ν : Type) where
  life : Lifecycle ν
  closer : CloserPoint

/-- A step of the system or of the task in `Engine::close`, and what others do to a handle. -/
inductive CloseEvent
  | life (e : LifeEvent)
  /-- `close` takes its next step; `timeUp` says whether the deadline has passed. -/
  | closer (timeUp : Bool)
  | push (id : ConnectionId) (frame : OutboundFrame)
  /-- `initiate_close` by anyone else. -/
  | initiateClose (id : ConnectionId) (code : UInt16) (reason : String) (graceful : Bool)

namespace CloserPoint

/-- The connections whose handles were copied and are still to be asked. -/
def ids : CloserPoint → List ConnectionId
  | collecting _ _ ids | asking _ ids => ids
  | _ => []

/-- `initiate_close` as `close` calls it (lines 1063 and 1074). -/
def ask : Sweep → ConnHandle → ConnHandle
  | .first, h => h.initiateClose closeGoingAway "server draining" true
  | .last _, h => h.initiateClose closeGoingAway "drain timeout" false

/-- The first sweep is still to reach `id`. -/
def Awaits (id : ConnectionId) : CloserPoint → Prop
  | collecting .first k ids => id ∈ ids ∨ k ≤ id.shard.toNat
  | asking .first ids => id ∈ ids
  | _ => False

/-- The shard of `id` was read as empty, and so were the shards before it. -/
def ReadEmpty (id : ConnectionId) : CloserPoint → Prop
  | counting k total => total = 0 ∧ id.shard.toNat < k
  | collecting (.last empty) _ _ | asking (.last empty) _ | stopped empty => empty = true
  | _ => False

/-- The first sweep is over. -/
def swept : CloserPoint → Bool
  | collecting .first _ _ | asking .first _ => false
  | _ => true

/-- The wait is over, and the registry was read as empty. -/
def sawEmpty : CloserPoint → Bool
  | collecting (.last empty) _ _ | asking (.last empty) _ | stopped empty => empty
  | _ => false

end CloserPoint

namespace Closing

variable {ν : Type} (contains : ν → IpAddr → Bool) (parse : List Char → Option IpAddr)

/-- The flag is raised (line 1058). -/
def begin (w : Lifecycle ν) : Closing ν :=
  { life := { w with gate := { w.gate with draining := true } }
    closer := .collecting .first 0 [] }

/-- One step of `close`. -/
def closerStep (c : Closing ν) (timeUp : Bool) : Closing ν :=
  match c.closer with
  | .collecting sweep k ids =>
    if h : k < shardCount then
      { c with
        closer := .collecting sweep (k + 1)
          (ids ++ (c.life.registry.shardHandles ⟨k, h⟩).map Prod.fst) }
    else { c with closer := .asking sweep ids }
  | .asking sweep (id :: ids) =>
    { life := c.life.step contains parse (.handle id (CloserPoint.ask sweep))
      closer := .asking sweep ids }
  | .asking .first [] => { c with closer := .counting 0 0 }
  | .asking (.last empty) [] => { c with closer := .stopped empty }
  | .counting k total =>
    if h : k < shardCount then
      { c with
        closer := .counting (k + 1)
          (total + (c.life.registry.shards ⟨k, h⟩).slab.entries.length) }
    else if total = 0 then { c with closer := .collecting (.last true) 0 [] }
    else if timeUp then { c with closer := .collecting (.last false) 0 [] }
    else { c with closer := .counting 0 0 }
  | .stopped _ => c

/-- One event while `close` runs. -/
def step (c : Closing ν) : CloseEvent → Closing ν
  | .life e => { c with life := c.life.step contains parse e }
  | .closer timeUp => c.closerStep contains parse timeUp
  | .push id frame =>
    { c with life := c.life.step contains parse (.handle id fun h => (h.push frame).1) }
  | .initiateClose id code reason graceful =>
    { c with
      life := c.life.step contains parse
        (.handle id fun h => h.initiateClose code reason graceful) }

/-- The flag stays up, handles are only pushed to and closed, and no id is handed out that a
    connection has still to unbind or whose handle `close` has still to ask. -/
def Orderly (c : Closing ν) : CloseEvent → Prop
  | .life (.gate (.setDraining draining)) => draining = true
  | .life (.handle _ _) => False
  | .life (.insert i key handle) =>
    c.life.Fresh (.insert i key handle) ∧
      c.closer.ids.contains
        (c.life.registry.fetchShard.2.issued c.life.registry.fetchShard.1 key) = false
  | _ => True

instance Orderly.instDecidable (c : Closing ν) : DecidablePred c.Orderly
  | .life (.gate (.setDraining _)) => inferInstanceAs (Decidable (_ = _))
  | .life (.handle _ _) => isFalse id
  | .life (.insert _ _ _) => inferInstanceAs (Decidable (_ ∧ _))
  | .life (.gate (.upgrade _ _ _)) | .life (.gate (.step _)) | .life (.begin _)
  | .life (.resolve _ _) | .life (.step _) | .life (.rooms _ _) | .closer _ | .push _ _
  | .initiateClose _ _ _ _ => isTrue trivial

end Closing

/-! ## Upgrades that the gate has let pass -/

namespace Gate

variable {ν : Type} {contains : ν → IpAddr → Bool} {parse : List Char → Option IpAddr} {g : Gate ν}
  {e : GateEvent} {i : ℕ}

theorem draining_step (he : e ≠ .setDraining false) (h : g.draining = true) :
    (g.step contains parse e).draining = true := by
  cases e with
  | upgrade j peer headers =>
    unfold step
    dsimp only
    split_ifs <;> exact h
  | step j =>
    unfold step
    dsimp only
    cases g.upgrades.lookup j with
    | none => exact h
    | some u =>
      dsimp only
      unfold upgradeStep reject
      split
      · split_ifs
        exact h
      · split <;> exact h
      · split_ifs <;> exact h
      · exact h
  | setDraining draining =>
    cases draining with
    | true => rfl
    | false => exact absurd rfl he

/-- The upgrade has passed the draining check and holds its guard, or is about to ask for
    it. -/
def past : Upgrade → Bool
  | .resolved _ | .admitted _ => true
  | _ => false

theorem step_of_lookup {u : Upgrade} (hi : g.upgrades.lookup i = some u) :
    g.step contains parse (.step i) = g.upgradeStep contains parse i u := by
  unfold step
  dsimp only
  rw [hi]

/-- The guard is dropped. -/
theorem not_past_release {guard : IpAdmitGuard} {u : Upgrade}
    (hi : g.upgrades.lookup i = some (.admitted guard))
    (h : (g.step contains parse (.step i)).upgrades.lookup i = some u) : past u = false := by
  rw [step_of_lookup hi] at h
  unfold upgradeStep at h
  dsimp only at h
  split_ifs at h
  all_goals
    rw [lookup_setUpgrade, if_pos rfl] at h
    cases h
  rfl

/-- While the flag is up, an upgrade that is past the check was past it before. -/
theorem past_step (hdraining : g.draining = true) {u : Upgrade} (hu : past u = true)
    (h : (g.step contains parse e).upgrades.lookup i = some u) :
    g.upgrades.lookup i = some u ∨ ∃ ip, g.upgrades.lookup i = some (.resolved ip) := by
  cases e with
  | upgrade j peer headers =>
    unfold step at h
    dsimp only at h
    split_ifs at h with hj
    · exact .inl h
    · change (g.upgrades.insert j _).lookup i = some u at h
      rw [lookup_insert] at h
      split_ifs at h with hij
      · cases h
        cases hu
      · exact .inl h
  | setDraining draining => exact .inl h
  | step j =>
    unfold step at h
    dsimp only at h
    cases hj : g.upgrades.lookup j with
    | none =>
      rw [hj] at h
      exact .inl h
    | some u' =>
      rw [hj] at h
      by_cases hij : i = j
      · subst hij
        cases u' with
        | arriving peer headers =>
          -- turned away
          unfold upgradeStep at h
          dsimp only at h
          rw [if_pos hdraining] at h
          change (g.setUpgrade i none).upgrades.lookup i = some u at h
          rw [lookup_setUpgrade, if_pos rfl] at h
          cases h
        | resolved ip => exact .inr ⟨ip, hj⟩
        | admitted guard =>
          have hrelease : (g.step contains parse (.step i)).upgrades.lookup i = some u := by
            rwa [step_of_lookup hj]
          rw [not_past_release hj hrelease] at hu
          cases hu
        | removing ip =>
          unfold upgradeStep at h
          rw [lookup_setUpgrade, if_pos rfl] at h
          cases h
      · refine .inl ?_
        have hset : ∀ (g' : Gate ν) (next : Option Upgrade), g'.upgrades = g.upgrades →
            (g'.setUpgrade j next).upgrades.lookup i = some u → g.upgrades.lookup i = some u := by
          intro g' next hg' hnext
          rwa [lookup_setUpgrade, if_neg hij, hg'] at hnext
        dsimp only at h
        unfold upgradeStep reject at h
        split at h
        · split_ifs at h
          exact hset _ _ rfl h
        · split at h <;> exact hset _ _ rfl h
        · split_ifs at h <;> exact hset _ _ rfl h
        · exact hset _ _ rfl h

end Gate

namespace LifePoint

/-- Before `registry.insert`. -/
def early : Option LifePoint → Bool
  | none | some authorizing | some (accepted _) => true
  | _ => false

end LifePoint

namespace Lifecycle

variable {ν : Type} {contains : ν → IpAddr → Bool} {parse : List Char → Option IpAddr}
  {w : Lifecycle ν} {e : LifeEvent} {i : ℕ} {id : ConnectionId} {maxPerIp : UInt32}

/-- Upgrade `i` is past the draining check and not yet registered. -/
def Entering (w : Lifecycle ν) (i : ℕ) : Prop :=
  (∃ u, w.gate.upgrades.lookup i = some u ∧ Gate.past u = true) ∧
    LifePoint.early (w.conns.lookup i) = true

theorem entering_setConn {w' : Lifecycle ν} {j : ℕ} (p : LifePoint)
    (h : (w'.setConn j (some p)).Entering i) (hgate : w'.gate = w.gate)
    (hconns : w'.conns = w.conns)
    (hp : LifePoint.early (some p) = true → LifePoint.early (w.conns.lookup j) = true) :
    w.Entering i := by
  obtain ⟨hpast, hearly⟩ := h
  change LifePoint.early ((w'.conns.set j (some p)).lookup i) = true at hearly
  refine ⟨by rwa [← hgate], ?_⟩
  rw [Tasks.lookup_set, hconns] at hearly
  split_ifs at hearly with hij
  · rw [hij]
    exact hp hearly
  · exact hearly

theorem entering_gateStep (hdraining : w.gate.draining = true) (e : GateEvent) {w' : Lifecycle ν}
    (h : w'.Entering i) (hgate : w'.gate = w.gate.step contains parse e)
    (hconns : w'.conns.lookup i = w.conns.lookup i) : w.Entering i := by
  obtain ⟨⟨u, hu, hpast⟩, hearly⟩ := h
  rw [hgate] at hu
  rw [hconns] at hearly
  obtain hsame | ⟨ip, hresolved⟩ := Gate.past_step hdraining hpast hu
  · exact ⟨⟨u, hsame, hpast⟩, hearly⟩
  · exact ⟨⟨_, hresolved, rfl⟩, hearly⟩

/-- While the flag is up, nothing comes to be on its way into the registry. -/
theorem entering_connStep {p : LifePoint} {j : ℕ} (hdraining : w.gate.draining = true)
    (h : w.Guarded maxPerIp) (hj : w.conns.lookup j = some p)
    (hentering : (w.connStep contains parse j p).Entering i) : w.Entering i := by
  cases p with
  | authorizing => exact hentering
  | accepted user => exact hentering
  | counted user id =>
    cases user <;> exact entering_setConn (.running _ id) hentering rfl rfl nofun
  | removed user id =>
    cases user with
    | none => exact entering_setConn (.unbound id) hentering rfl rfl nofun
    | some u =>
      refine entering_setConn (.struck u id (w.identity.strike u id).2) hentering rfl rfl ?_
      cases (w.identity.strike u id).2 <;> exact nofun
  | leaving =>
    by_cases hij : i = j
    · subst hij
      obtain ⟨guard, hguard⟩ := h.held i _ hj
      obtain ⟨⟨u, hu, hpast⟩, -⟩ := hentering
      rw [Gate.not_past_release hguard hu] at hpast
      cases hpast
    · refine entering_gateStep hdraining (.step j) hentering rfl ?_
      show (w.conns.set j none).lookup i = _
      rw [Tasks.lookup_set, if_neg hij]
  | inserted user id => exact entering_setConn (.counted user id) hentering rfl rfl nofun
  | running user id => exact entering_setConn (.ended user id) hentering rfl rfl nofun
  | ended user id => exact entering_setConn (.removed user id) hentering rfl rfl nofun
  | emptied u id => exact entering_setConn (.unbound id) hentering rfl rfl nofun
  | unbound id => exact entering_setConn .leaving hentering rfl rfl nofun

theorem entering_step (hdraining : w.gate.draining = true) (h : w.Guarded maxPerIp)
    (hentering : (w.step contains parse e).Entering i) : w.Entering i := by
  cases e with
  | gate e =>
    unfold step at hentering
    dsimp only at hentering
    split_ifs at hentering
    · exact hentering
    · exact entering_gateStep hdraining e hentering rfl rfl
  | begin j =>
    unfold step at hentering
    dsimp only at hentering
    split at hentering
    case h_1 guard hadmitted hj =>
      exact entering_setConn _ hentering rfl rfl fun _ => by rw [hj]; rfl
    case h_2 => exact hentering
  | resolve j resolution =>
    unfold step at hentering
    dsimp only at hentering
    split at hentering
    case h_1 hj => exact entering_setConn _ hentering rfl rfl fun _ => by rw [hj]; rfl
    case h_2 => exact hentering
  | insert j key handle =>
    unfold step at hentering
    dsimp only at hentering
    split at hentering
    case h_1 user hj =>
      split_ifs at hentering
      · exact entering_setConn _ hentering rfl rfl nofun
      · exact hentering
    case h_2 => exact hentering
  | step j =>
    unfold step at hentering
    dsimp only at hentering
    cases hj : w.conns.lookup j with
    | none =>
      rw [hj] at hentering
      exact hentering
    | some p =>
      rw [hj] at hentering
      exact entering_connStep hdraining h hj hentering
  | rooms id f => exact hentering
  | handle id f => exact hentering

theorem draining_step (he : e ≠ .gate (.setDraining false)) (h : w.gate.draining = true) :
    (w.step contains parse e).gate.draining = true := by
  cases e with
  | gate e =>
    unfold step
    dsimp only
    split_ifs
    · exact h
    · refine Gate.draining_step ?_ h
      rintro rfl
      exact he rfl
  | begin j =>
    unfold step
    dsimp only
    split <;> exact h
  | resolve j resolution =>
    unfold step
    dsimp only
    split <;> exact h
  | insert j key handle =>
    unfold step
    dsimp only
    split
    · split_ifs <;> exact h
    · exact h
  | step j =>
    unfold step
    dsimp only
    cases hj : w.conns.lookup j with
    | none => exact h
    | some p =>
      cases p with
      | leaving => exact Gate.draining_step nofun h
      | counted user id => cases user <;> exact h
      | removed user id => cases user <;> exact h
      | _ => exact h
  | rooms id f => exact h
  | handle id f => exact h

/-! ## What is in the registry -/

variable {w' : Lifecycle ν}

/-- A connection gets its registry entry from `accepted`. -/
theorem conns_act (hact : Act contains parse w w') : w'.conns = w.conns ∨
    ∃ j next, w'.conns = w.conns.set j next ∧ ∀ x, next.bind LifePoint.registered = some x →
      (w.conns.lookup j).bind LifePoint.registered = some x ∨
        ∃ user, w.conns.lookup j = some (.accepted user) := by
  cases hact with
  | skip => exact .inl rfl
  | gate hfree => exact .inl rfl
  | touch hlen husers => exact .inl rfl
  | begin hadmitted hi => exact .inr ⟨_, some .authorizing, rfl, nofun⟩
  | resolve resolution hi =>
    refine .inr ⟨_, some (resolved resolution), rfl, ?_⟩
    obtain _ | ⟨_ | _⟩ := resolution <;> exact nofun
  | insert user id hi =>
    exact .inr ⟨_, some (.inserted user id), rfl, fun _ _ => .inr ⟨user, hi⟩⟩
  | @conn i p hi =>
    cases p with
    | authorizing => exact .inl rfl
    | accepted user => exact .inl rfl
    | inserted user id =>
      exact .inr ⟨i, some (.counted user id), rfl, fun x hx => .inl (by rw [hi]; exact hx)⟩
    | counted user id =>
      cases user with
      | none =>
        exact .inr ⟨i, some (.running none id), rfl, fun x hx => .inl (by rw [hi]; exact hx)⟩
      | some u =>
        exact .inr ⟨i, some (.running (some u) id), rfl, fun x hx => .inl (by rw [hi]; exact hx)⟩
    | running user id =>
      exact .inr ⟨i, some (.ended user id), rfl, fun x hx => .inl (by rw [hi]; exact hx)⟩
    | ended user id => exact .inr ⟨i, some (.removed user id), rfl, nofun⟩
    | removed user id =>
      cases user with
      | none => exact .inr ⟨i, some (.unbound id), rfl, nofun⟩
      | some u =>
        refine .inr ⟨i, some (.struck u id (w.identity.strike u id).2), rfl, ?_⟩
        cases (w.identity.strike u id).2 <;> exact nofun
    | emptied u id => exact .inr ⟨i, some (.unbound id), rfl, nofun⟩
    | unbound id => exact .inr ⟨i, some .leaving, rfl, nofun⟩
    | leaving => exact .inr ⟨i, none, rfl, nofun⟩

/-- The entry of connection `i`. -/
def entryOf (w : Lifecycle ν) (i : ℕ) : Option (Option UserId × ConnectionId) :=
  (w.conns.lookup i).bind LifePoint.registered

theorem entryOf_act (hact : Act contains parse w w') (h : w.Guarded maxPerIp)
    {x : Option UserId × ConnectionId} (hx : w'.entryOf i = some x) :
    w.entryOf i = some x ∨ w.Entering i := by
  unfold entryOf at hx ⊢
  obtain hsame | ⟨j, next, hset, hnext⟩ := conns_act hact
  · rw [hsame] at hx
    exact .inl hx
  · rw [hset, Tasks.lookup_set] at hx
    split_ifs at hx with hij
    · subst hij
      obtain hold | ⟨user, hi⟩ := hnext x hx
      · exact .inl hold
      · obtain ⟨guard, hguard⟩ := h.held i _ hi
        exact .inr ⟨⟨_, hguard, rfl⟩, by rw [hi]; rfl⟩
    · exact .inl hx

theorem Registered.find_of_entryOf (h : w.Registered) {user : Option UserId}
    (hi : w.entryOf i = some (user, id)) : ∃ entry, w.registry.find id = some entry := by
  obtain ⟨p, hp, hregistered⟩ := Option.bind_eq_some_iff.mp hi
  have huser := (h.users id user).mpr ⟨i, p, hp, hregistered⟩
  obtain ⟨entry, hentry, -⟩ := Option.map_eq_some_iff.mp huser
  exact ⟨entry, hentry⟩

/-- No step but an operation on the handle itself changes the handle of an entry that stays. -/
theorem handle_step (he : ∀ id f, e ≠ .handle id f) {entry entry' : Entry}
    (h : w.registry.find id = some entry)
    (h' : (w.step contains parse e).registry.find id = some entry') :
    entry'.handle = entry.handle := by
  have hsame : (w.step contains parse e).registry = w.registry → entry'.handle = entry.handle := by
    intro heq
    rw [heq, h] at h'
    cases h'
    rfl
  cases e with
  | gate e =>
    apply hsame
    unfold step
    dsimp only
    split_ifs <;> rfl
  | begin j =>
    apply hsame
    unfold step
    dsimp only
    split <;> rfl
  | resolve j resolution =>
    apply hsame
    unfold step
    dsimp only
    split <;> rfl
  | insert j key handle =>
    unfold step at h' hsame
    dsimp only at h' hsame
    split at h'
    case h_1 user hj =>
      split_ifs at h' with hvacant
      · -- an id that is handed out was not in use
        change (ShardedRegistry.insert _ _ _ _ _).find id = some entry' at h'
        rw [ShardedRegistry.find_insert hvacant.2 hvacant.1] at h'
        split_ifs at h' with hid
        · have hnone := ShardedRegistry.find_issued hvacant.2 hvacant.1
          rw [← hid] at hnone
          cases hnone.symm.trans h
        · cases h.symm.trans h'
          rfl
      · cases h.symm.trans h'
        rfl
    case h_2 =>
      cases h.symm.trans h'
      rfl
  | step j =>
    unfold step at h' hsame
    dsimp only at h' hsame
    cases hj : w.conns.lookup j with
    | none =>
      rw [hj] at hsame
      exact hsame rfl
    | some p =>
      rw [hj] at h' hsame
      cases p with
      | ended user id' =>
        change ((w.registry.removeFull id').2).find id = some entry' at h'
        rw [ShardedRegistry.find_removeFull] at h'
        split_ifs at h'
        cases h.symm.trans h'
        rfl
      | counted user id' => cases user <;> exact hsame rfl
      | removed user id' => cases user <;> exact hsame rfl
      | _ => exact hsame rfl
  | rooms id' f =>
    change (w.registry.withRooms id' fun rooms => ((), f rooms)).2.find id = some entry' at h'
    unfold ShardedRegistry.withRooms at h'
    cases hid : w.registry.find id' with
    | none =>
      rw [hid] at h'
      cases h.symm.trans h'
      rfl
    | some e =>
      rw [hid] at h'
      dsimp only at h'
      rw [ShardedRegistry.find_setRooms] at h'
      split_ifs at h' with heq
      · rw [heq, hid] at h
        rw [hid] at h'
        cases h
        cases h'
        rfl
      · cases h.symm.trans h'
        rfl
  | handle id' f => exact absurd rfl (he id' f)

/-- The connection of `id` was asked to close. -/
def Asked (w : Lifecycle ν) (id : ConnectionId) : Prop :=
  ∃ entry cmd, w.registry.find id = some entry ∧ entry.handle.close = some cmd

theorem asked_step (he : ∀ id f, e ≠ .handle id f) (h : w.Asked id) {entry' : Entry}
    (h' : (w.step contains parse e).registry.find id = some entry') :
    (w.step contains parse e).Asked id := by
  obtain ⟨entry, cmd, hfind, hclose⟩ := h
  exact ⟨entry', cmd, h', by rw [handle_step he hfind h', hclose]⟩

/-- An operation on a handle that does not take a close back. -/
theorem asked_handle {f : ConnHandle → ConnHandle} (hf : ∀ h cmd, h.close = some cmd →
      ∃ cmd', (f h).close = some cmd') {id' : ConnectionId} (h : w.Asked id) :
    (w.step contains parse (.handle id' f)).Asked id := by
  obtain ⟨entry, cmd, hfind, hclose⟩ := h
  show ∃ entry cmd, (w.registry.onHandle id' f).find id = some entry ∧ _
  rw [ShardedRegistry.lookup_onHandle]
  split_ifs with hid
  · obtain ⟨cmd', hcmd'⟩ := hf entry.handle cmd hclose
    rw [← hid, hfind]
    exact ⟨_, cmd', rfl, hcmd'⟩
  · exact ⟨entry, cmd, hfind, hclose⟩

/-- The handle of `id` is closed. -/
theorem asked_of_handle {f : ConnHandle → ConnHandle} (hf : ∀ h, ∃ cmd, (f h).close = some cmd)
    {entry : Entry} (h : w.registry.find id = some entry) :
    (w.step contains parse (.handle id f)).Asked id := by
  obtain ⟨cmd, hcmd⟩ := hf entry.handle
  show ∃ entry cmd, (w.registry.onHandle id f).find id = some entry ∧ _
  rw [ShardedRegistry.lookup_onHandle, if_pos rfl, h]
  exact ⟨_, cmd, rfl, hcmd⟩

end Lifecycle

/-! ## Sweeps -/

namespace ConnHandle

theorem close_initiateClose (h : ConnHandle) (code : UInt16) (reason : String) (graceful : Bool) :
    ∃ cmd, (h.initiateClose code reason graceful).close = some cmd := by
  unfold initiateClose
  cases h.close <;> exact ⟨_, rfl⟩

theorem close_push {h : ConnHandle} {cmd : CloseCmd} (hclose : h.close = some cmd)
    (frame : OutboundFrame) : ∃ cmd', (h.push frame).1.close = some cmd' := by
  unfold push
  dsimp only
  split_ifs
  · exact close_initiateClose ..
  · exact ⟨cmd, hclose⟩

end ConnHandle

namespace ShardedRegistry

variable {r : ShardedRegistry} {id : ConnectionId} {entry : Entry}

/-- An entry is listed with its shard. -/
theorem mem_shardHandles_of_find (h : r.find id = some entry) {k : ℕ} (hk : k < shardCount)
    (hshard : id.shard.toNat = k) : id ∈ (r.shardHandles ⟨k, hk⟩).map Prod.fst := by
  have hid : shardOf id = some ⟨k, hk⟩ := shardOf_eq_some.mpr hshard
  rw [find_of_shardOf hid] at h
  obtain ⟨slot, hslot, hchecked⟩ := Option.bind_eq_some_iff.mp h
  unfold checked at hchecked
  split_ifs at hchecked with hgeneration
  have hmem : _ ∈ r.shardHandles ⟨k, hk⟩ := mem_shardList.mpr ⟨_, slot, hslot, rfl⟩
  refine List.mem_map.mpr ⟨_, hmem, ?_⟩
  dsimp only
  rw [hgeneration, ← hshard, UInt8.ofNat_toNat, UInt32.ofNat_toNat, IssuedIds.new_fields]

/-- A shard with an entry is not empty. -/
theorem length_slab_pos (h : r.find id = some entry) {k : ℕ} (hk : k < shardCount)
    (hshard : id.shard.toNat = k) : 0 < (r.shards ⟨k, hk⟩).slab.entries.length := by
  have hid : shardOf id = some ⟨k, hk⟩ := shardOf_eq_some.mpr hshard
  rw [find_of_shardOf hid] at h
  obtain ⟨slot, hslot, -⟩ := Option.bind_eq_some_iff.mp h
  exact List.length_pos_of_mem ((List.mem_dlookup_iff (r.shards ⟨k, hk⟩).slab.nodupKeys).mp hslot)

theorem shard_lt_of_find (h : r.find id = some entry) : id.shard.toNat < shardCount := by
  obtain ⟨k, hk⟩ := exists_shardOf h
  rw [shardOf_eq_some.mp hk]
  exact k.isLt

end ShardedRegistry

namespace Closing

variable {ν : Type} {contains : ν → IpAddr → Bool} {parse : List Char → Option IpAddr}
  {c : Closing ν} {e : CloseEvent} {S : ℕ → Prop} {maxPerIp : UInt32}

/-- `S` are the upgrades that were on their way into the registry when the flag was raised:
    any other connection has been asked to close or is about to be, and is not in a shard
    that was read as empty. -/
structure Sound (maxPerIp : UInt32) (S : ℕ → Prop) (c : Closing ν) : Prop where
  exact : c.life.Exact maxPerIp
  draining : c.life.gate.draining = true
  entering : ∀ i, c.life.Entering i → S i
  asked : ∀ i user id, c.life.entryOf i = some (user, id) →
    c.life.Asked id ∨ c.closer.Awaits id ∨ S i
  empty : ∀ i user id, c.life.entryOf i = some (user, id) → c.closer.ReadEmpty id → S i

/-- A step of a connection, or of someone who uses its handle. -/
theorem Sound.lifeStep (h : c.Sound maxPerIp S) {e : LifeEvent}
    (hfresh : c.life.Fresh e) (hflag : e ≠ .gate (.setDraining false))
    (hasked : ∀ id entry', c.life.Asked id →
      (c.life.step contains parse e).registry.find id = some entry' →
      (c.life.step contains parse e).Asked id) :
    Sound maxPerIp S { c with life := c.life.step contains parse e } := by
  have hact := @Lifecycle.act_step _ contains parse c.life e hfresh
  have hexact : (c.life.step contains parse e).Exact maxPerIp :=
    Lifecycle.exact_step h.exact hfresh
  refine ⟨hexact, Lifecycle.draining_step hflag h.draining, ?_, ?_, ?_⟩
  · intro i hi
    exact h.entering i (Lifecycle.entering_step h.draining h.exact.guarded hi)
  · intro i user id hi
    obtain hold | hentering := Lifecycle.entryOf_act hact h.exact.guarded hi
    · obtain ⟨entry', hentry'⟩ := hexact.registered.find_of_entryOf hi
      exact (h.asked i user id hold).imp_left fun hid => hasked id entry' hid hentry'
    · exact .inr (.inr (h.entering i hentering))
  · intro i user id hi hempty
    obtain hold | hentering := Lifecycle.entryOf_act hact h.exact.guarded hi
    · exact h.empty i user id hold hempty
    · exact h.entering i hentering

theorem Sound.handle (h : c.Sound maxPerIp S) (id : ConnectionId)
    {f : ConnHandle → ConnHandle}
    (hf : ∀ h cmd, h.close = some cmd → ∃ cmd', (f h).close = some cmd') :
    Sound maxPerIp S { c with life := c.life.step contains parse (.handle id f) } :=
  h.lifeStep trivial nofun fun _ _ hid _ => Lifecycle.asked_handle hf hid

/-- A step of `close` that asks nobody. -/
theorem Sound.advance (h : c.Sound maxPerIp S) (next : CloserPoint)
    (hawaits : ∀ i user id entry, c.life.entryOf i = some (user, id) →
      c.life.registry.find id = some entry → c.closer.Awaits id → next.Awaits id)
    (hempty : ∀ i user id entry, c.life.entryOf i = some (user, id) →
      c.life.registry.find id = some entry → next.ReadEmpty id → c.closer.ReadEmpty id) :
    Sound maxPerIp S { c with closer := next } := by
  refine ⟨h.exact, h.draining, h.entering, ?_, ?_⟩
  · intro i user id hi
    obtain ⟨entry, hentry⟩ := h.exact.registered.find_of_entryOf hi
    obtain hasked | hawait | hS := h.asked i user id hi
    · exact .inl hasked
    · exact .inr (.inl (hawaits i user id entry hi hentry hawait))
    · exact .inr (.inr hS)
  · intro i user id hi hread
    obtain ⟨entry, hentry⟩ := h.exact.registered.find_of_entryOf hi
    exact h.empty i user id hi (hempty i user id entry hi hentry hread)

/-- `close` asks the connection of `id`, if it is still there. -/
theorem Sound.ask (h : c.Sound maxPerIp S) {sweep : Sweep}
    {id : ConnectionId} {ids : List ConnectionId} (hcloser : c.closer = .asking sweep (id :: ids)) :
    Sound maxPerIp S
      { life := c.life.step contains parse (.handle id (CloserPoint.ask sweep))
        closer := .asking sweep ids } := by
  have hclose : ∀ handle, ∃ cmd, (CloserPoint.ask sweep handle).close = some cmd := by
    intro handle
    cases sweep <;> exact ConnHandle.close_initiateClose ..
  have hnext : Sound maxPerIp S
      { c with life := c.life.step contains parse (.handle id (CloserPoint.ask sweep)) } :=
    h.handle id fun handle _ _ => hclose handle
  refine ⟨hnext.exact, hnext.draining, hnext.entering, ?_, ?_⟩
  · intro i user id' hi
    obtain hasked | hawait | hS := hnext.asked i user id' hi
    · exact .inl hasked
    · by_cases hid : id' = id
      · subst hid
        have hold : c.life.entryOf i = some (user, id') := hi
        obtain ⟨entry, hentry⟩ := h.exact.registered.find_of_entryOf hold
        exact .inl (@Lifecycle.asked_of_handle ν contains parse c.life id' _ hclose entry hentry)
      · refine .inr (.inl ?_)
        rw [hcloser] at hawait
        cases sweep with
        | first => exact (List.mem_cons.mp hawait).resolve_left hid
        | last empty => exact hawait
    · exact .inr (.inr hS)
  · intro i user id' hi hread
    refine hnext.empty i user id' hi ?_
    rw [hcloser]
    cases sweep with
    | first => cases hread
    | last empty => exact hread

theorem Sound.closerStep (h : c.Sound maxPerIp S) (timeUp : Bool) :
    (c.closerStep contains parse timeUp).Sound maxPerIp S := by
  unfold Closing.closerStep
  split
  case h_1 sweep k ids hcloser =>
    split_ifs with hk
    · refine h.advance _ ?_ ?_
      · intro i user id entry hi hentry hawait
        rw [hcloser] at hawait
        cases sweep with
        | first =>
          obtain hid | hle := hawait
          · exact .inl (List.mem_append_left _ hid)
          · obtain heq | hlt := hle.eq_or_lt
            · exact .inl (List.mem_append_right _
                (ShardedRegistry.mem_shardHandles_of_find hentry hk heq.symm))
            · exact .inr hlt
        | last empty => exact hawait
      · intro i user id entry hi hentry hread
        rw [hcloser]
        cases sweep <;> exact hread
    · refine h.advance _ ?_ ?_
      · intro i user id entry hi hentry hawait
        rw [hcloser] at hawait
        cases sweep with
        | first =>
          -- behind the last shard, every id has been copied
          have hlt := ShardedRegistry.shard_lt_of_find hentry
          exact hawait.resolve_right fun hle => hk (hle.trans_lt hlt)
        | last empty => exact hawait
      · intro i user id entry hi hentry hread
        rw [hcloser]
        cases sweep <;> exact hread
  case h_2 sweep id ids hcloser => exact h.ask hcloser
  case h_3 hcloser =>
    refine h.advance _ ?_ ?_
    · intro i user id entry hi hentry hawait
      rw [hcloser] at hawait
      cases hawait
    · rintro i user id entry hi hentry ⟨-, hlt⟩
      cases hlt
  case h_4 empty hcloser =>
    refine h.advance _ ?_ ?_
    · intro i user id entry hi hentry hawait
      rw [hcloser] at hawait
      exact hawait
    · intro i user id entry hi hentry hread
      rw [hcloser]
      exact hread
  case h_5 k total hcloser =>
    have hawaits : ∀ next : CloserPoint, ∀ i user id entry,
        c.life.entryOf i = some (user, id) → c.life.registry.find id = some entry →
        c.closer.Awaits id → next.Awaits id := by
      intro next i user id entry hi hentry hawait
      rw [hcloser] at hawait
      cases hawait
    split_ifs with hk htotal htime
    · refine h.advance _ (hawaits _) ?_
      rintro i user id entry hi hentry ⟨hzero, hlt⟩
      rw [hcloser]
      obtain ⟨hzero, hslab⟩ := Nat.add_eq_zero_iff.mp hzero
      refine ⟨hzero, (Nat.lt_succ_iff_lt_or_eq.mp hlt).resolve_right fun heq => ?_⟩
      -- the shard that was just counted holds no connection
      have hpos := ShardedRegistry.length_slab_pos hentry hk heq
      omega
    · refine h.advance _ (hawaits _) ?_
      intro i user id entry hi hentry hread
      rw [hcloser]
      exact ⟨htotal, (ShardedRegistry.shard_lt_of_find hentry).trans_le (Nat.le_of_not_lt hk)⟩
    · refine h.advance _ (hawaits _) ?_
      intro i user id entry hi hentry hread
      cases hread
    · refine h.advance _ (hawaits _) ?_
      rintro i user id entry hi hentry ⟨-, hlt⟩
      cases hlt
  case h_6 => exact h

theorem sound_step (h : c.Sound maxPerIp S) (he : c.Orderly e) :
    (c.step contains parse e).Sound maxPerIp S := by
  cases e with
  | closer timeUp => exact h.closerStep timeUp
  | push id frame =>
    exact h.handle id fun handle _ hclose => ConnHandle.close_push hclose frame
  | initiateClose id code reason graceful =>
    exact h.handle id fun handle _ _ => ConnHandle.close_initiateClose ..
  | life e =>
    have hhandle : ∀ id f, e ≠ .handle id f := by
      rintro id f rfl
      exact he
    refine h.lifeStep ?_ ?_ fun id _ hid hentry => Lifecycle.asked_step hhandle hid hentry
    · cases e with
      | insert i key handle => exact he.1
      | _ => trivial
    · rintro rfl
      cases he

theorem sound_begin {w : Lifecycle ν} (h : w.Exact maxPerIp) :
    (begin w).Sound maxPerIp w.Entering where
  exact := ⟨h.counted, ⟨h.registered.len, h.registered.users, h.registered.apart⟩,
    ⟨h.bound.devices, h.bound.empty⟩,
    ⟨h.guarded.exact.congr rfl (fun _ => rfl) rfl, h.guarded.held⟩⟩
  draining := rfl
  entering i hi := hi
  asked i user id hi := .inr (.inl (.inr (Nat.zero_le _)))
  empty i user id hi hread := by cases hread

theorem sound_run (resolver : ClientIpResolver ν) {before : List LifeEvent}
    (hbefore : StepsMeet (Lifecycle.step contains parse) Lifecycle.Fresh
      (.start resolver maxPerIp) before) {w : Lifecycle ν}
    (hw : run (Lifecycle.step contains parse) (.start resolver maxPerIp) before = w)
    {evs : List CloseEvent} (hevs : StepsMeet (step contains parse) Orderly (begin w) evs) :
    (run (step contains parse) (begin w) evs).Sound maxPerIp w.Entering := by
  have hexact : w.Exact maxPerIp := by
    rw [← hw]
    exact Lifecycle.exact_run resolver hbefore
  exact run_invariant_of_stepsMeet (fun _ _ h he => sound_step h he) (sound_begin hexact) hevs

/-- Whatever connections do while `close` is at work: no upgrade passes the gate that had not
    passed it when the flag was raised. Once the first sweep is over, every connection in the
    registry has been asked to close, except those that were on their way in at that time;
    and when the registry was read as empty, only such are in it. Without any, it is empty. -/
theorem close_asks_all (resolver : ClientIpResolver ν) (maxPerIp : UInt32)
    (before : List LifeEvent)
    (hbefore : StepsMeet (Lifecycle.step contains parse) Lifecycle.Fresh
      (.start resolver maxPerIp) before) (w : Lifecycle ν)
    (hw : run (Lifecycle.step contains parse) (.start resolver maxPerIp) before = w)
    (evs : List CloseEvent) (hevs : StepsMeet (step contains parse) Orderly (begin w) evs)
    (c : Closing ν) (hc : run (step contains parse) (begin w) evs = c) :
    (∀ i, c.life.Entering i → w.Entering i) ∧
    (c.closer.swept = true → ∀ i user id, c.life.entryOf i = some (user, id) →
      c.life.Asked id ∨ w.Entering i) ∧
    (c.closer.sawEmpty = true → ∀ i user id, c.life.entryOf i = some (user, id) →
      w.Entering i) ∧
    (c.closer.sawEmpty = true → (∀ i, ¬ w.Entering i) → c.life.registry.len = 0) := by
  have h : c.Sound maxPerIp w.Entering := by
    rw [← hc]
    exact sound_run resolver hbefore hw hevs
  have hempty : c.closer.sawEmpty = true → ∀ i user id, c.life.entryOf i = some (user, id) →
      w.Entering i := by
    intro hsaw i user id hi
    refine h.empty i user id hi ?_
    cases hcloser : c.closer with
    | collecting sweep k ids => cases sweep <;> rw [hcloser] at hsaw <;> cases hsaw; rfl
    | asking sweep ids => cases sweep <;> rw [hcloser] at hsaw <;> cases hsaw; rfl
    | counting k total =>
      rw [hcloser] at hsaw
      cases hsaw
    | stopped empty =>
      rw [hcloser] at hsaw
      exact hsaw
  refine ⟨h.entering, ?_, hempty, ?_⟩
  · intro hswept i user id hi
    obtain hasked | hawait | hS := h.asked i user id hi
    · exact .inl hasked
    · cases hcloser : c.closer with
      | collecting sweep k ids =>
        rw [hcloser] at hswept hawait
        cases sweep with
        | first => cases hswept
        | last empty => cases hawait
      | asking sweep ids =>
        rw [hcloser] at hswept hawait
        cases sweep with
        | first => cases hswept
        | last empty => cases hawait
      | counting k total =>
        rw [hcloser] at hawait
        cases hawait
      | stopped empty =>
        rw [hcloser] at hawait
        cases hawait
    · exact .inr hS
  · intro hsaw hnone
    rw [h.exact.registered.len]
    refine Tasks.count_eq_zero fun i p hi => ?_
    by_contra hregistered
    obtain ⟨⟨user, id⟩, hp⟩ :=
      Option.isSome_iff_exists.mp (Bool.eq_true_of_not_eq_false hregistered)
    exact hnone i (hempty hsaw i user id (Option.bind_eq_some_iff.mpr ⟨p, hi, hp⟩))

end Closing

/-! ## A connection on its way in -/

namespace Proxied

/-- Connection 0 is up; connection 1 is past the gate. -/
def beforeClose : List LifeEvent := arrive 0 ++ [.step 0, .step 0] ++ (arrive 1).take 5

/-- The engine when `close` is called. -/
def openEngine : Lifecycle ℕ := run (Lifecycle.step contains parse) (.start .peerOnly 2) beforeClose

/-- Connection 1 registers itself when the shards have been copied. -/
def firstSweep : List CloseEvent :=
  List.replicate 17 (.closer false) ++ [.life (.insert 1 0 (.new 16 .dropNewest)), .closer false,
    .closer false]

/-- The engine behind the first sweep. -/
def closingEngine : Closing ℕ :=
  run (Closing.step contains parse) (Closing.begin openEngine) firstSweep

theorem closing_asked : closingEngine.closer = .counting 0 0 ∧ closingEngine.life.registry.len = 2 ∧
    ∀ i user id, closingEngine.life.entryOf i = some (user, id) →
      closingEngine.life.Asked id ∨ openEngine.Entering i := by
  have h := @Closing.close_asks_all ℕ contains parse .peerOnly 2 beforeClose
    (by decide +kernel) openEngine rfl firstSweep (by decide +kernel) closingEngine rfl
  exact ⟨by decide +kernel, by decide +kernel, h.2.1 (by decide +kernel)⟩

end Proxied

end BeamSocket.Core
