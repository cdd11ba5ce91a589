import BeamSocket.Core.ClientIp
import BeamSocket.Lib.Run
import BeamSocket.Lib.Tasks

/-!
# Admission by client address

Model of `IpLimiter`, its guards and `Gate::admit` (`crates/core/src/limits.rs`,
lines 157–321), cut into atomic steps: an entry of the map is locked while it is
looked at and changed, and `release` takes the lock a second time to remove an entry
that it has left at zero. A guard is dropped by a step of the task that holds it.

* `Gate.step`: one step of any number of upgrades and releases.
* `Gate.admission_exact`: the count of an address is the number of its guards, and
  what follows from it.
-/

namespace BeamSocket.Core

open BeamSocket.Lib

/-- `HTTP_TOO_MANY_REQUESTS`. -/
def httpTooManyRequests : UInt16 := 429

/-- `HTTP_SERVICE_UNAVAILABLE`. -/
def httpServiceUnavailable : UInt16 := 503

/-- `struct IpAdmitGuard`; `limited` is whether it holds the limiter. -/
structure IpAdmitGuard where
  limited : Bool
  ip : IpAddr
  deriving DecidableEq, Repr

/-- `struct IpLimiter`. -/
structure IpLimiter where
  /-- 0 is unlimited. -/
  maxPerIp : UInt32
  counts : AList fun _ : IpAddr => UInt32

namespace IpLimiter

variable (l : IpLimiter) (ip : IpAddr)

/-- `IpLimiter::new` (lines 163–168). -/
def new (maxPerIp : UInt32) : IpLimiter := { maxPerIp, counts := ∅ }

/-- `current` (lines 211–213). -/
def current : UInt32 := (l.counts.lookup ip).getD 0

/-- `try_admit` (lines 183–198). The entry stays locked from `or_insert` on. -/
def tryAdmit : IpLimiter × Option IpAdmitGuard :=
  if l.maxPerIp = 0 then (l, some ⟨false, ip⟩)
  else if l.current ip ≥ l.maxPerIp then
    ({ l with counts := l.counts.insert ip (l.current ip) }, none)
  else ({ l with counts := l.counts.insert ip (l.current ip + 1) }, some ⟨true, ip⟩)

/-- `release` up to the unlock of the entry (lines 201–204), and whether it left the
    entry at zero. -/
def decrement : IpLimiter × Bool :=
  match l.counts.lookup ip with
  | none => (l, false)
  | some count => ({ l with counts := l.counts.insert ip (count - 1) }, count - 1 = 0)

/-- The `remove_if` of `release` (line 207). -/
def removeIfZero : IpLimiter :=
  if l.counts.lookup ip = some 0 then { l with counts := l.counts.erase ip } else l

end IpLimiter

/-- An upgrade, from `Gate::admit` to the end of the drop of its guard. -/
inductive Upgrade
  | arriving (peer : IpAddr) (headers : List (String × String))
  /-- `try_admit` is next. -/
  | resolved (ip : IpAddr)
  /-- The guard is held. -/
  | admitted (guard : IpAdmitGuard)
  /-- `release` has left the entry at zero. -/
  | removing (ip : IpAddr)
  deriving DecidableEq, Repr

/-- `struct Gate` with the upgrades at work. `rejected` holds the statuses of those that
    were turned away, newest first, with the number of the upgrade. -/
structure Gate (ν : Type) where
  resolver : ClientIpResolver ν
  limiter : IpLimiter
  draining : Bool
  /-- `metrics.admission_rejected_ip`. -/
  admissionRejectedIp : ℕ
  upgrades : Tasks Upgrade
  rejected : List (ℕ × UInt16)

/-- What can happen at the gate: a call of `admit`, a step of an upgrade, `set_draining`. -/
inductive GateEvent
  /-- `admit` is called for upgrade `i`. -/
  | upgrade (i : ℕ) (peer : IpAddr) (headers : List (String × String))
  /-- Upgrade `i` takes its next step. -/
  | step (i : ℕ)
  | setDraining (draining : Bool)

namespace Gate

variable {ν : Type} (contains : ν → IpAddr → Bool) (parse : List Char → Option IpAddr)

/-- `Gate::new` (lines 263–270). -/
def new (resolver : ClientIpResolver ν) (maxPerIp : UInt32) : Gate ν :=
  { resolver, limiter := .new maxPerIp, draining := false, admissionRejectedIp := 0,
    upgrades := ∅, rejected := [] }

/-- Upgrade `i`, with `next` left to do. -/
def setUpgrade (g : Gate ν) (i : ℕ) (next : Option Upgrade) : Gate ν :=
  { g with upgrades := g.upgrades.set i next }

/-- Upgrade `i` is turned away. -/
def reject (g : Gate ν) (i : ℕ) (status : UInt16) : Gate ν :=
  { g.setUpgrade i none with rejected := (i, status) :: g.rejected }

/-- One step of upgrade `i`: of `Gate::admit` (lines 297–321), or of the drop of its
    guard (lines 231–237). -/
def upgradeStep (g : Gate ν) (i : ℕ) : Upgrade → Gate ν
  | .arriving peer headers =>
    if g.draining then g.reject i httpServiceUnavailable
    else g.setUpgrade i (some (.resolved (resolveClientIp contains parse g.resolver peer headers)))
  | .resolved ip =>
    match g.limiter.tryAdmit ip with
    | (limiter, some guard) => { g with limiter }.setUpgrade i (some (.admitted guard))
    | (limiter, none) =>
      { g with limiter, admissionRejectedIp := g.admissionRejectedIp + 1 }.reject i
        httpTooManyRequests
  | .admitted guard =>
    if guard.limited then
      let (limiter, zero) := g.limiter.decrement guard.ip
      { g with limiter }.setUpgrade i (if zero then some (.removing guard.ip) else none)
    else g.setUpgrade i none
  | .removing ip => { g with limiter := g.limiter.removeIfZero ip }.setUpgrade i none

/-- One event at the gate; the number of an upgrade is used once. -/
def step (g : Gate ν) : GateEvent → Gate ν
  | .upgrade i peer headers =>
    if i ∈ g.upgrades then g
    else { g with upgrades := g.upgrades.insert i (.arriving peer headers) }
  | .step i =>
    match g.upgrades.lookup i with
    | none => g
    | some u => g.upgradeStep contains parse i u
  | .setDraining draining => { g with draining }

/-- The upgrade holds a guard of `ip`. -/
def holds (ip : IpAddr) : Upgrade → Bool
  | .admitted guard => guard = ⟨true, ip⟩
  | _ => false

/-- The number of guards of `ip` that are held. -/
def guards (g : Gate ν) (ip : IpAddr) : ℕ := g.upgrades.count (holds ip)

/-! ## Counts and guards -/

variable {contains parse} {g g' : Gate ν} {i : ℕ} {ip : IpAddr}

theorem guards_setUpgrade (g : Gate ν) (i : ℕ) (next : Option Upgrade) (ip : IpAddr) :
    (g.setUpgrade i next).guards ip + Tasks.weight (holds ip) (g.upgrades.lookup i) =
      g.guards ip + Tasks.weight (holds ip) next := Tasks.count_set ..

theorem lookup_setUpgrade (g : Gate ν) (i j : ℕ) (next : Option Upgrade) :
    (g.setUpgrade i next).upgrades.lookup j = if j = i then next else g.upgrades.lookup j :=
  Tasks.lookup_set ..

theorem current_insert (l : IpLimiter) (ip ip' : IpAddr) (count : UInt32) :
    IpLimiter.current { l with counts := l.counts.insert ip count } ip' =
      if ip' = ip then count else l.current ip' := by
  unfold IpLimiter.current
  rw [lookup_insert]
  split_ifs <;> rfl

/-- Guards are counted unless there is no limit. The counts are those of the guards that are held;
    an entry at zero is about to be removed. -/
structure Exact (maxPerIp : UInt32) (g : Gate ν) : Prop where
  max : g.limiter.maxPerIp = maxPerIp
  limited : ∀ i guard, g.upgrades.lookup i = some (.admitted guard) →
    guard.limited = decide (maxPerIp ≠ 0)
  count : ∀ ip, (g.limiter.current ip).toNat = g.guards ip
  bound : ∀ ip, g.guards ip ≤ maxPerIp.toNat
  zero : ∀ ip, g.limiter.counts.lookup ip = some 0 → ∃ i, g.upgrades.lookup i = some (.removing ip)

variable {maxPerIp : UInt32}

theorem exact_new (resolver : ClientIpResolver ν) (maxPerIp : UInt32) :
    (new resolver maxPerIp).Exact maxPerIp :=
  ⟨rfl, nofun, fun _ => rfl, fun _ => Nat.zero_le _, nofun⟩

theorem weight_eq_zero {next : Option Upgrade}
    (h : ∀ guard, next = some (.admitted guard) → guard.limited = false) (ip : IpAddr) :
    Tasks.weight (holds ip) next = 0 := by
  match next, h with
  | none, _ => rfl
  | some (.arriving _ _), _ => rfl
  | some (.resolved _), _ => rfl
  | some (.removing _), _ => rfl
  | some (.admitted ⟨true, _⟩), h => cases h _ rfl
  | some (.admitted ⟨false, _⟩), _ => simp [Tasks.weight, holds]

theorem weight_admitted (ip ip' : IpAddr) :
    Tasks.weight (holds ip') (some (.admitted ⟨true, ip⟩)) = if ip' = ip then 1 else 0 := by
  by_cases h : ip' = ip
  · subst h
    simp [Tasks.weight, holds]
  · simp [Tasks.weight, holds, h, Ne.symm h]

/-- A step that touches neither the limiter nor a guard that is counted, of an upgrade that is not
    removing an entry. -/
theorem Exact.keep (h : g.Exact maxPerIp) {u : Option Upgrade} (next : Option Upgrade)
    (hi : g.upgrades.lookup i = u)
    (hu : ∀ guard, u = some (.admitted guard) → guard.limited = false)
    (hremoving : ∀ ip, u ≠ some (.removing ip))
    (hnext : ∀ guard, next = some (.admitted guard) → guard.limited = false ∧ maxPerIp = 0) :
    (g.setUpgrade i next).Exact maxPerIp := by
  have hguards : ∀ ip, (g.setUpgrade i next).guards ip = g.guards ip := by
    intro ip
    have hcount := guards_setUpgrade g i next ip
    rw [hi, weight_eq_zero hu, weight_eq_zero fun guard hguard => (hnext guard hguard).1] at hcount
    exact hcount
  refine ⟨h.max, ?_, ?_, ?_, ?_⟩
  · intro j guard hj
    rw [lookup_setUpgrade] at hj
    split_ifs at hj
    · obtain ⟨hlimited, hmax⟩ := hnext guard hj
      rw [hlimited, hmax]
      rfl
    · exact h.limited j guard hj
  · intro ip
    rw [hguards]
    exact h.count ip
  · intro ip
    rw [hguards]
    exact h.bound ip
  · intro ip hzero
    obtain ⟨j, hj⟩ := h.zero ip hzero
    refine ⟨j, ?_⟩
    have hji : j ≠ i := by
      rintro rfl
      rw [hi] at hj
      exact hremoving ip hj
    rw [lookup_setUpgrade, if_neg hji, hj]

/-- The limiter is asked for `ip`. -/
theorem tryAdmit_eq (h : g.Exact maxPerIp) (hmax : maxPerIp ≠ 0) (ip : IpAddr) :
    g.limiter.tryAdmit ip =
      if g.guards ip = maxPerIp.toNat then
        ({ g.limiter with counts := g.limiter.counts.insert ip (g.limiter.current ip) }, none)
      else
        ({ g.limiter with counts := g.limiter.counts.insert ip (g.limiter.current ip + 1) },
          some ⟨true, ip⟩) := by
  have hiff : g.limiter.current ip ≥ g.limiter.maxPerIp ↔ g.guards ip = maxPerIp.toNat := by
    rw [h.max, ge_iff_le, UInt32.le_iff_toNat_le, h.count]
    have := h.bound ip
    omega
  unfold IpLimiter.tryAdmit
  rw [if_neg (by rw [h.max]; exact hmax)]
  simp only [hiff]

/-- Only the entries of the limiter matter, and not what is logged. -/
theorem Exact.congr (h : g.Exact maxPerIp) (hmax : g'.limiter.maxPerIp = g.limiter.maxPerIp)
    (hcounts : ∀ ip, g'.limiter.counts.lookup ip = g.limiter.counts.lookup ip)
    (hupgrades : g'.upgrades = g.upgrades) : g'.Exact maxPerIp := by
  have hcurrent : ∀ ip, g'.limiter.current ip = g.limiter.current ip := by
    intro ip
    unfold IpLimiter.current
    rw [hcounts]
  have hguards : ∀ ip, g'.guards ip = g.guards ip := by
    intro ip
    unfold guards
    rw [hupgrades]
  refine ⟨hmax.trans h.max, ?_, ?_, ?_, ?_⟩
  · rw [hupgrades]
    exact h.limited
  · intro ip
    rw [hcurrent, hguards]
    exact h.count ip
  · intro ip
    rw [hguards]
    exact h.bound ip
  · intro ip hzero
    rw [hcounts] at hzero
    rw [hupgrades]
    exact h.zero ip hzero

theorem succ_toNat {count max : UInt32} (h : count.toNat < max.toNat) :
    (count + 1).toNat = count.toNat + 1 := by
  have hlt : max.toNat < 2 ^ 32 := max.toNat_lt
  rw [UInt32.toNat_add, show (1 : UInt32).toNat = 1 from rfl]
  omega

theorem pred_toNat {count : UInt32} (h : 0 < count.toNat) :
    (count - 1).toNat = count.toNat - 1 := by
  have hlt : count.toNat < 2 ^ 32 := count.toNat_lt
  rw [UInt32.toNat_sub, show (1 : UInt32).toNat = 1 from rfl]
  omega

/-- A guard is taken below the maximum. -/
theorem Exact.admitted (h : g.Exact maxPerIp) (hi : g.upgrades.lookup i = some (.resolved ip))
    (hroom : g.guards ip < maxPerIp.toNat) :
    Exact maxPerIp
      (setUpgrade
        { g with limiter :=
          { g.limiter with
            counts := g.limiter.counts.insert ip (g.limiter.current ip + 1) } }
        i (some (.admitted ⟨true, ip⟩))) := by
  have hguards : ∀ ip', guards (setUpgrade
        { g with limiter :=
          { g.limiter with
            counts := g.limiter.counts.insert ip (g.limiter.current ip + 1) } }
        i (some (.admitted ⟨true, ip⟩))) ip' = g.guards ip' + if ip' = ip then 1 else 0 := by
    intro ip'
    have hcount := guards_setUpgrade g i (some (.admitted ⟨true, ip⟩)) ip'
    rw [hi, weight_eq_zero (by simp)] at hcount
    rwa [weight_admitted] at hcount
  have hlt : (g.limiter.current ip).toNat < maxPerIp.toNat := by
    rw [h.count]
    exact hroom
  refine ⟨h.max, ?_, ?_, ?_, ?_⟩
  · intro j guard hj
    rw [lookup_setUpgrade] at hj
    split_ifs at hj
    · cases hj
      refine (decide_eq_true ?_).symm
      rintro rfl
      exact Nat.not_lt_zero _ hroom
    · exact h.limited j guard hj
  · intro ip'
    rw [hguards]
    show (IpLimiter.current { g.limiter with counts := _ } ip').toNat = _
    rw [current_insert]
    split_ifs with hip
    · subst hip
      rw [succ_toNat hlt, h.count]
    · exact h.count ip'
  · intro ip'
    rw [hguards]
    split_ifs with hip
    · subst hip
      exact hroom
    · exact h.bound ip'
  · intro ip' hzero
    change (g.limiter.counts.insert ip _).lookup ip' = some 0 at hzero
    rw [lookup_insert] at hzero
    split_ifs at hzero with hip
    · -- the entry is not at zero after it has been counted up
      have hsucc := succ_toNat hlt
      rw [Option.some.inj hzero] at hsucc
      cases hsucc
    · obtain ⟨j, hj⟩ := h.zero ip' hzero
      refine ⟨j, ?_⟩
      have hji : j ≠ i := by
        rintro rfl
        rw [hi] at hj
        cases hj
      rw [lookup_setUpgrade, if_neg hji]
      exact hj

theorem exact_admit (h : g.Exact maxPerIp) (hi : g.upgrades.lookup i = some (.resolved ip)) :
    (g.upgradeStep contains parse i (.resolved ip)).Exact maxPerIp := by
  unfold upgradeStep
  dsimp only
  by_cases hmax : maxPerIp = 0
  · -- without a limit the guard is not counted
    rw [IpLimiter.tryAdmit, if_pos (h.max.trans hmax)]
    refine h.keep _ hi nofun nofun ?_
    intro guard hguard
    cases hguard
    exact ⟨rfl, hmax⟩
  rw [tryAdmit_eq h hmax ip]
  split_ifs with hfull
  · refine (h.keep none hi nofun nofun nofun).congr rfl ?_ rfl
    -- `or_insert` finds the entry of a full address
    have hentry : g.limiter.counts.lookup ip = some (g.limiter.current ip) := by
      cases hlookup : g.limiter.counts.lookup ip with
      | some count => rw [IpLimiter.current, hlookup, Option.getD_some]
      | none =>
        have hcount := h.count ip
        rw [IpLimiter.current, hlookup, hfull] at hcount
        exact absurd (UInt32.toNat_inj.mp hcount).symm hmax
    intro ip'
    show (g.limiter.counts.insert ip (g.limiter.current ip)).lookup ip' = _
    rw [lookup_insert]
    split_ifs with hip
    · rw [hip]
      exact hentry.symm
    · rfl
  · exact h.admitted hi (lt_of_le_of_ne (h.bound ip) hfull)

/-- A guard that is held is counted. -/
theorem Exact.lookup_counts (h : g.Exact maxPerIp)
    (hi : g.upgrades.lookup i = some (.admitted ⟨true, ip⟩)) :
    ∃ count, g.limiter.counts.lookup ip = some count ∧ 0 < count.toNat := by
  have hpos : 0 < g.guards ip := Tasks.count_pos _ hi (by simp [holds])
  rw [← h.count ip] at hpos
  unfold IpLimiter.current at hpos
  cases hlookup : g.limiter.counts.lookup ip with
  | none =>
    rw [hlookup] at hpos
    cases hpos
  | some count =>
    rw [hlookup] at hpos
    exact ⟨count, rfl, hpos⟩

theorem exact_release (h : g.Exact maxPerIp)
    (hi : g.upgrades.lookup i = some (.admitted ⟨true, ip⟩)) :
    (g.upgradeStep contains parse i (.admitted ⟨true, ip⟩)).Exact maxPerIp := by
  obtain ⟨count, hcount, hpos⟩ := h.lookup_counts hi
  unfold upgradeStep IpLimiter.decrement
  dsimp only
  rw [if_pos rfl, hcount]
  dsimp only
  generalize hnext : (if decide (count - 1 = 0) = true then some (Upgrade.removing ip) else none) =
    next
  have hadmitted : ∀ guard, next ≠ some (.admitted guard) := by
    rw [← hnext]
    split_ifs <;> exact nofun
  have hguards : ∀ ip', (g.setUpgrade i next).guards ip' + (if ip' = ip then 1 else 0) =
      g.guards ip' := by
    intro ip'
    have hset := guards_setUpgrade g i next ip'
    rwa [hi, weight_admitted, weight_eq_zero fun _ hguard => absurd hguard (hadmitted _)] at hset
  have hcurrent : g.limiter.current ip = count := by
    rw [IpLimiter.current, hcount, Option.getD_some]
  refine ⟨h.max, ?_, ?_, ?_, ?_⟩
  · intro j guard hj
    rw [lookup_setUpgrade] at hj
    split_ifs at hj
    · exact absurd hj (hadmitted guard)
    · exact h.limited j guard hj
  · intro ip'
    have hip' := hguards ip'
    show (IpLimiter.current { g.limiter with counts := _ } ip').toNat =
      (g.setUpgrade i next).guards ip'
    rw [current_insert]
    split_ifs at hip' ⊢ with hip
    · subst hip
      rw [pred_toNat hpos, ← hcurrent, h.count]
      omega
    · rw [h.count]
      exact hip'.symm
  · intro ip'
    have hip' := hguards ip'
    have hbound := h.bound ip'
    show (g.setUpgrade i next).guards ip' ≤ _
    omega
  · intro ip' hzero
    change (g.limiter.counts.insert ip _).lookup ip' = some 0 at hzero
    rw [lookup_insert] at hzero
    split_ifs at hzero with hip
    · -- the entry that this release has left at zero
      refine ⟨i, ?_⟩
      rw [lookup_setUpgrade, if_pos rfl, ← hnext, if_pos (by simpa using hzero), hip]
    · obtain ⟨j, hj⟩ := h.zero ip' hzero
      refine ⟨j, ?_⟩
      have hji : j ≠ i := by
        rintro rfl
        rw [hi] at hj
        cases hj
      rw [lookup_setUpgrade, if_neg hji]
      exact hj

theorem removeIfZero_lookup (l : IpLimiter) (ip ip' : IpAddr) :
    (l.removeIfZero ip).counts.lookup ip' =
      if ip' = ip ∧ l.counts.lookup ip = some 0 then none else l.counts.lookup ip' := by
  unfold IpLimiter.removeIfZero
  by_cases hzero : l.counts.lookup ip = some 0
  · rw [if_pos hzero, lookup_erase]
    simp [hzero]
  · rw [if_neg hzero, if_neg (by tauto)]

theorem exact_remove (h : g.Exact maxPerIp) (hi : g.upgrades.lookup i = some (.removing ip)) :
    (g.upgradeStep contains parse i (.removing ip)).Exact maxPerIp := by
  unfold upgradeStep
  have hguards : ∀ ip', guards (setUpgrade
      { g with limiter := g.limiter.removeIfZero ip } i none) ip' = g.guards ip' := by
    intro ip'
    have hset := guards_setUpgrade g i none ip'
    rwa [hi] at hset
  have hcurrent : ∀ ip', (g.limiter.removeIfZero ip).current ip' = g.limiter.current ip' := by
    intro ip'
    unfold IpLimiter.current
    rw [removeIfZero_lookup]
    split_ifs with hip
    · rw [hip.1, hip.2]
      rfl
    · rfl
  refine ⟨?_, ?_, ?_, ?_, ?_⟩
  · show (g.limiter.removeIfZero ip).maxPerIp = maxPerIp
    rw [← h.max]
    unfold IpLimiter.removeIfZero
    split_ifs <;> rfl
  · intro j guard hj
    rw [lookup_setUpgrade] at hj
    split_ifs at hj
    exact h.limited j guard hj
  · intro ip'
    rw [hguards, ← h.count]
    exact congrArg UInt32.toNat (hcurrent ip')
  · intro ip'
    rw [hguards]
    exact h.bound ip'
  · intro ip' hzero
    change (g.limiter.removeIfZero ip).counts.lookup ip' = some 0 at hzero
    rw [removeIfZero_lookup] at hzero
    split_ifs at hzero with hip
    obtain ⟨j, hj⟩ := h.zero ip' hzero
    refine ⟨j, ?_⟩
    have hji : j ≠ i := by
      rintro rfl
      rw [hi] at hj
      cases hj
      exact hip ⟨rfl, hzero⟩
    rw [lookup_setUpgrade, if_neg hji]
    exact hj

theorem exact_step (g : Gate ν) (e : GateEvent) (h : g.Exact maxPerIp) :
    (g.step contains parse e).Exact maxPerIp := by
  cases e with
  | upgrade i peer headers =>
    unfold step
    dsimp only
    split_ifs with hi
    · exact h
    · exact h.keep (some _) (AList.lookup_eq_none.mpr hi) nofun nofun nofun
  | step i =>
    unfold step
    dsimp only
    cases hi : g.upgrades.lookup i with
    | none => exact h
    | some u =>
      cases u with
      | arriving peer headers =>
        unfold upgradeStep
        dsimp only
        split_ifs
        · exact (h.keep none hi nofun nofun nofun).congr rfl (fun _ => rfl) rfl
        · exact h.keep _ hi nofun nofun nofun
      | resolved ip => exact exact_admit h hi
      | admitted guard =>
        obtain ⟨limited, ip⟩ := guard
        cases limited with
        | true => exact exact_release h hi
        | false =>
          refine h.keep none hi ?_ nofun nofun
          intro guard hguard
          cases hguard
          rfl
      | removing ip => exact exact_remove h hi
  | setDraining draining => exact h.congr rfl (fun _ => rfl) rfl

/-- For a limit other than zero, after any steps of any upgrades and releases: the count
    of an address is the number of its guards and at most the limit; a guard that is
    held is counted; an upgrade is refused iff its address has as many guards as the
    limit; and unless an entry is about to be removed, an address without guards has
    none. -/
theorem admission_exact (resolver : ClientIpResolver ν) (maxPerIp : UInt32) (hmax : maxPerIp ≠ 0)
    (evs : List GateEvent) (g : Gate ν)
    (hg : run (step contains parse) (new resolver maxPerIp) evs = g) :
    (∀ ip, (g.limiter.current ip).toNat = g.guards ip ∧ g.guards ip ≤ maxPerIp.toNat) ∧
    (∀ i guard, g.upgrades.lookup i = some (.admitted guard) →
      ∃ count, g.limiter.counts.lookup guard.ip = some count ∧ 0 < count.toNat) ∧
    (∀ i ip, g.upgrades.lookup i = some (.resolved ip) →
      (g.guards ip = maxPerIp.toNat →
        (g.step contains parse (.step i)).upgrades.lookup i = none ∧
        (g.step contains parse (.step i)).rejected = (i, httpTooManyRequests) :: g.rejected) ∧
      (g.guards ip ≠ maxPerIp.toNat →
        (g.step contains parse (.step i)).upgrades.lookup i = some (.admitted ⟨true, ip⟩) ∧
        (g.step contains parse (.step i)).rejected = g.rejected)) ∧
    ((∀ i ip, g.upgrades.lookup i ≠ some (.removing ip)) →
      ∀ ip, g.guards ip = 0 → g.limiter.counts.lookup ip = none) := by
  have h : g.Exact maxPerIp := by
    rw [← hg]
    exact run_invariant exact_step (exact_new resolver maxPerIp)
  refine ⟨fun ip => ⟨h.count ip, h.bound ip⟩, ?_, ?_, ?_⟩
  · intro i guard hi
    have hlimited := (h.limited i guard hi).trans (decide_eq_true hmax)
    obtain ⟨limited, ip⟩ := guard
    cases hlimited
    exact h.lookup_counts hi
  · intro i ip hi
    have hstep : g.step contains parse (.step i) =
        g.upgradeStep contains parse i (.resolved ip) := by
      unfold step
      dsimp only
      rw [hi]
    rw [hstep]
    unfold upgradeStep
    dsimp only
    rw [tryAdmit_eq h hmax ip]
    constructor
    · intro hfull
      rw [if_pos hfull]
      exact ⟨(lookup_setUpgrade ..).trans (if_pos rfl), rfl⟩
    · intro hroom
      rw [if_neg hroom]
      exact ⟨(lookup_setUpgrade ..).trans (if_pos rfl), rfl⟩
  · intro hnone ip hguards
    have hcount := h.count ip
    rw [hguards] at hcount
    cases hlookup : g.limiter.counts.lookup ip with
    | none => rfl
    | some count =>
      rw [IpLimiter.current, hlookup, Option.getD_some] at hcount
      have hzero : count = 0 := UInt32.toNat_inj.mp hcount
      rw [hzero] at hlookup
      obtain ⟨i, hi⟩ := h.zero ip hlookup
      exact absurd hi (hnone i ip)

end Gate

/-! ## Two upgrades of one address -/

namespace Proxied

/-- A limit of one; the second upgrade comes while the first is up. -/
def crowded : List GateEvent :=
  [.upgrade 0 client [], .upgrade 1 client [], .step 0, .step 0, .step 1]

/-- The gate behind `crowded`, with one slot for each address. -/
def crowdedGate : Gate ℕ := run (Gate.step contains parse) (.new .peerOnly 1) crowded

theorem crowded_refused :
    crowdedGate.guards client = 1 ∧
      (crowdedGate.step contains parse (.step 1)).rejected = [(1, httpTooManyRequests)] := by
  have h := @Gate.admission_exact ℕ contains parse .peerOnly 1 (by decide) crowded crowdedGate rfl
  exact ⟨by decide +kernel, ((h.2.2.1 1 client (by decide +kernel)).1 (by decide +kernel)).2⟩

end Proxied

end BeamSocket.Core
