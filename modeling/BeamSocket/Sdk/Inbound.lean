import BeamSocket.Node.Bridge
import BeamSocket.Sdk.Server

/-!
# From the wire to the application

The inbound path in one piece: the connections, the channel and the drain loop (`Bridge`), the
flush buffers that the drain thread hands to JavaScript one by one
(`crates/node/src/binding.rs`, lines 324–358), `#onFlush` with `demux`
(`packages/beamsocket/src/server.ts`, lines 572–601), and the sockets of the server object
(`Server`). The Rust side takes steps between any two handler calls of a flush, and so does the
application, which may also throw out of a listener: `demux` then ends, and what was left of
the flush is lost.

* `Inbound.inbound_exact`: a socket emits the data frames of its own connection.
-/

namespace BeamSocket.Sdk

open BeamSocket.Lib BeamSocket.Mesh BeamSocket.Core BeamSocket.Node

/-! ## What a connection has its socket emit -/

/-- What a call says about the connection `hi`, `lo`: it opens (`some none`), or its socket
    emits something. -/
def HandlerCall.about {H : Type} (hi lo : UInt32) : HandlerCall H → Option (Option SocketEmit)
  | .onOpen hi' lo' _ => if hi' = hi ∧ lo' = lo then some none else none
  | .onMessage hi' lo' payload isBinary =>
    if hi' = hi ∧ lo' = lo then some (some (.message payload isBinary)) else none
  | .onClose hi' lo' code reason =>
    if hi' = hi ∧ lo' = lo then some (some (.close code reason)) else none
  | .onAuthorize _ _ _ _ _ => none

/-- The handler call of an event. -/
def ServerEvent.handled {H M : Type} : ServerEvent H M → Option (HandlerCall H)
  | .handle call => some call
  | _ => none

/-- What the event means for the socket with the id halves `hi` and `lo`, if it is about it. -/
def ServerEvent.about {H M : Type} (hi lo : UInt32) (ev : ServerEvent H M) :
    Option (Option SocketEmit) := ev.handled.bind (·.about hi lo)

/-- The events up to the first `close`. -/
def SocketEmit.upToClose : List SocketEmit → List SocketEmit
  | [] => []
  | e :: es => if e.isClose then [e] else e :: upToClose es

theorem SocketEmit.upToClose_begins (es : List SocketEmit) : upToClose es <+: es := by
  induction es with
  | nil => exact List.prefix_rfl
  | cons e es ih =>
    rw [upToClose]
    split_ifs
    · exact ⟨es, rfl⟩
    · exact List.cons_prefix_cons.mpr ⟨rfl, ih⟩

theorem SocketEmit.upToClose_append {es : List SocketEmit} (h : ∀ e ∈ es, e.isClose = false)
    (last : Option SocketEmit) : upToClose (es ++ last.toList) = es ++ last.toList := by
  induction es with
  | nil =>
    cases last with
    | none => rfl
    | some e => cases he : e.isClose <;> simp [upToClose, he]
  | cons e es ih =>
    have htail := ih fun e' he' => h e' (List.mem_cons_of_mem _ he')
    rw [List.cons_append, upToClose, if_neg (by simp [h e List.mem_cons_self]), htail]

section

variable {H M : Type} {hi lo : UInt32} {ev : ServerEvent H M}

theorem ServerEvent.about_eq_opens : ev.about hi lo = some none ↔ ev.opens hi lo = true := by
  cases ev with
  | handle call => cases call <;> simp [about, handled, HandlerCall.about, opens]
  | _ => simp [about, handled, opens]

namespace SocketLife

variable {k : ℕ} {life : SocketLife}

theorem step_of_about {e : SocketEmit} (h : ev.about hi lo = some (some e)) :
    life.step hi lo k ev = life.hear e := by
  cases ev with
  | handle call =>
    cases call with
    | onMessage hi' lo' payload isBinary =>
      simp only [ServerEvent.about, ServerEvent.handled, HandlerCall.about, Option.bind_some] at h
      split_ifs at h with hown
      cases h
      exact if_pos hown
    | onClose hi' lo' code reason =>
      simp only [ServerEvent.about, ServerEvent.handled, HandlerCall.about, Option.bind_some] at h
      split_ifs at h with hown
      cases h
      exact if_pos hown
    | _ => simp [ServerEvent.about, ServerEvent.handled, HandlerCall.about] at h
  | _ => cases h

/-- An event that says nothing about the connection. -/
theorem step_of_about_none (life : SocketLife) (k : ℕ) (h : ev.about hi lo = none) :
    (life.step hi lo k ev).emitted = life.emitted ∧
      ((life.step hi lo k ev).phase = life.phase ∨ ev = .close) := by
  cases ev with
  | handle call =>
    cases call with
    | onMessage hi' lo' payload isBinary =>
      have hother : ¬(hi' = hi ∧ lo' = lo) := fun hown => nomatch (if_pos hown).symm.trans h
      rw [step, if_neg hother]
      exact ⟨rfl, .inl rfl⟩
    | onClose hi' lo' code reason =>
      have hother : ¬(hi' = hi ∧ lo' = lo) := fun hown => nomatch (if_pos hown).symm.trans h
      rw [step, if_neg hother]
      exact ⟨rfl, .inl rfl⟩
    | _ => exact ⟨rfl, .inl rfl⟩
  | settle => exact ⟨rfl, .inl rfl⟩
  | use j op =>
    rw [step]
    split_ifs <;> exact ⟨rfl, .inl rfl⟩
  | close =>
    rw [step]
    refine ⟨?_, .inr rfl⟩
    split_ifs <;> rfl

theorem hear_of_not_live (h : life.phase ≠ .live) (e : SocketEmit) : life.hear e = life := if_neg h

theorem step_of_not_live (h : life.phase ≠ .live) : life.step hi lo k ev = life := by
  cases ev with
  | handle call =>
    cases call with
    | onMessage hi' lo' payload isBinary =>
      rw [step, hear_of_not_live h, ite_self]
    | onClose hi' lo' code reason => rw [step, hear_of_not_live h, ite_self]
    | _ => rfl
  | settle => rfl
  | use j op => exact if_neg fun hlive => h hlive.2
  | close => exact if_neg h

theorem run_of_not_live (h : life.phase ≠ .live) (evs : List (ServerEvent H M)) :
    run (step hi lo k) life evs = life := by
  induction evs with
  | nil => rfl
  | cons ev evs ih => rw [run_cons, step_of_not_live h, ih]

/-- Without `io.close()` a socket emits what the events of its connection say, up to the end of
    the connection. -/
theorem emitted_run_of_live {evs : List (ServerEvent H M)} {news : List SocketEmit}
    (hlive : life.phase = .live) (hclose : .close ∉ evs)
    (hnews : evs.filterMap (·.about hi lo) = news.map some) :
    (run (step hi lo k) life evs).emitted = life.emitted ++ SocketEmit.upToClose news := by
  induction evs generalizing life news with
  | nil =>
    cases List.map_eq_nil_iff.mp hnews.symm
    exact (List.append_nil _).symm
  | cons ev evs ih =>
    rw [List.mem_cons, not_or] at hclose
    rw [run_cons]
    rcases habout : ev.about hi lo with _ | _ | e
    · rw [List.filterMap_cons_none habout] at hnews
      obtain ⟨hkept, hphase⟩ := step_of_about_none life k habout
      rw [← hkept]
      refine ih ?_ hclose.2 hnews
      rcases hphase with hphase | rfl
      · exact hphase.trans hlive
      · exact absurd rfl hclose.1
    · rw [List.filterMap_cons_some habout] at hnews
      cases news <;> cases hnews
    · rw [List.filterMap_cons_some habout] at hnews
      cases news with
      | nil => cases hnews
      | cons e' news =>
        obtain ⟨heq, htail⟩ := List.cons.inj hnews
        cases heq
        rw [step_of_about habout, SocketEmit.upToClose, hear, if_pos hlive]
        cases he : e.isClose with
        | true =>
          rw [run_of_not_live (by simp)]
          rfl
        | false =>
          rw [ih rfl hclose.2 htail]
          simp

theorem not_live_of_close (hi lo : UInt32) (k : ℕ) (life : SocketLife) :
    (life.step hi lo k (.close : ServerEvent H M)).phase ≠ .live := by
  rw [step]
  split_ifs with hlive
  · nofun
  · exact hlive

/-- In any case it emits a beginning of that. -/
theorem emitted_run {evs : List (ServerEvent H M)} {news : List SocketEmit}
    (hlive : life.phase = .live) (hnews : evs.filterMap (·.about hi lo) = news.map some) :
    (run (step hi lo k) life evs).emitted <+: life.emitted ++ news := by
  by_cases hclose : .close ∈ evs
  · -- it is dropped at the first `io.close()` and emits nothing from there on
    obtain ⟨before, after, rfl, hbefore⟩ := List.eq_append_cons_of_mem hclose
    rw [List.filterMap_append] at hnews
    obtain ⟨first, rest, rfl, hfirst, -⟩ := List.map_eq_append_iff.mp hnews.symm
    have hemitted := emitted_run_of_live (k := k) hlive hbefore hfirst.symm
    have hkept := (step_of_about_none (run (step hi lo k) life before) k
      (rfl : (ServerEvent.close : ServerEvent H M).about hi lo = none)).1
    rw [run_append, run_cons, run_of_not_live (not_live_of_close hi lo k _), hkept, hemitted,
      ← List.append_assoc]
    refine List.IsPrefix.trans ?_ (List.prefix_append _ rest)
    exact (List.prefix_append_right_inj _).mpr (SocketEmit.upToClose_begins first)
  · rw [emitted_run_of_live hlive hclose hnews]
    exact (List.prefix_append_right_inj _).mpr (SocketEmit.upToClose_begins news)

end SocketLife

theorem ServerEvent.exists_of_opens (h : ev.opens hi lo = true) :
    ∃ authReq, ev = .handle (.onOpen hi lo authReq) := by
  cases ev with
  | handle call =>
    cases call with
    | onOpen hi' lo' authReq =>
      obtain ⟨rfl, rfl⟩ : hi' = hi ∧ lo' = lo := by simpa [opens] using h
      exact ⟨authReq, rfl⟩
    | _ => cases h
  | _ => cases h

namespace Server

/-- `socket` is the one object of the connection. -/
def SocketOf (s : Server H M) (hi lo : UInt32) (socket : Socket M) : Prop :=
  socket.idHi = hi ∧ socket.idLo = lo ∧ ∃ k, s.objects[k]? = some socket ∧
    ∀ (j : ℕ) (socket' : Socket M), s.objects[j]? = some socket' → socket'.idHi = hi →
      socket'.idLo = lo → j = k

/-- The messages that sockets have emitted. -/
def messages (s : Server H M) : ℕ :=
  (s.objects.map fun socket => socket.emitted.countP fun e => !e.isClose).sum

variable [EmptyCollection M]

theorem running_step (s : Server H M) (ev : ServerEvent H M) :
    (s.step ev).running = true ↔ s.running = true ∧ ev ≠ .close := by
  rcases step_cases s ev with ⟨hsilent, hsame⟩ | ⟨_, _, _, rfl, -, hstep⟩ |
    ⟨_, _, e, _, rfl, -, hstep⟩ | ⟨_, _, _, rfl, -, -, -, hstep⟩ | ⟨rfl, -, hstep⟩
  · rw [hsame.running, iff_self_and]
    rintro hrunning rfl
    exact Bool.noConfusion (hrunning.symm.trans hsilent)
  · rw [hstep]
    exact (and_iff_left nofun).symm
  · rw [hstep]
    exact (and_iff_left nofun).symm
  · rw [hstep]
    exact (and_iff_left nofun).symm
  · rw [hstep]
    simp

theorem running_run (s : Server H M) (evs : List (ServerEvent H M)) :
    (run step s evs).running = true ↔ s.running = true ∧ .close ∉ evs := by
  induction evs generalizing s with
  | nil => simp
  | cons ev evs ih => rw [run_cons, ih, running_step, List.mem_cons, not_or, and_assoc, ne_comm]

/-- Take a log of the server in which a connection is opened and `news` is then said about it.
    Its socket has emitted a beginning of `news`, and without `io.close()` all of it up to the
    end of the connection. It has no socket only if `io.close()` came first. -/
theorem hears_run (nodeId : Option NodeId) (hasHook : Bool) {log : List (ServerEvent H M)}
    {news : List SocketEmit} (hlog : log.filterMap (·.about hi lo) = none :: news.map some) :
    ((run step (new nodeId hasHook) log).Unopened hi lo ∧ .close ∈ log) ∨
    ∃ socket, (run step (new nodeId hasHook) log).SocketOf hi lo socket ∧
      socket.emitted <+: news ∧ (.close ∉ log → socket.emitted = SocketEmit.upToClose news) := by
  obtain ⟨before, ev, after, rfl, hbefore, hev, hafter⟩ := List.filterMap_eq_cons_iff.mp hlog
  obtain ⟨authReq, rfl⟩ := ServerEvent.exists_of_opens (ServerEvent.about_eq_opens.mp hev)
  have hopens : ∀ ev ∈ before ++ after, ev.opens hi lo = false := by
    intro ev hmem
    rw [← Bool.not_eq_true, ← ServerEvent.about_eq_opens]
    intro habout
    rcases List.mem_append.mp hmem with hmem | hmem
    · cases (hbefore ev hmem).symm.trans habout
    · have hnone : none ∈ after.filterMap (·.about hi lo) :=
        List.mem_filterMap.mpr ⟨ev, hmem, habout⟩
      rw [hafter] at hnone
      obtain ⟨e, -, he⟩ := List.mem_map.mp hnone
      cases he
  by_cases hrunning : (run step (new nodeId hasHook) before).running = true
  · right
    have htracks := tracks_run nodeId hasHook authReq hopens hrunning
    obtain ⟨socket, hobject, hhi, hlo, hl⟩ := htracks.object
    have hemitted := congrArg SocketLife.emitted hl
    refine ⟨socket, ⟨hhi, hlo, _, hobject, htracks.sole⟩, ?_, ?_⟩
    · rw [show socket.emitted = _ from hemitted.symm]
      exact SocketLife.emitted_run rfl hafter
    · intro hclose
      rw [show socket.emitted = _ from hemitted.symm]
      refine SocketLife.emitted_run_of_live rfl (fun hmem => hclose ?_) hafter
      exact List.mem_append_right _ (List.mem_cons_of_mem _ hmem)
  · left
    have hclose : .close ∈ before := by
      by_contra hnot
      exact hrunning ((running_run _ _).mpr ⟨rfl, hnot⟩)
    refine ⟨?_, List.mem_append_left _ hclose⟩
    have hunopened := unopened_run nodeId hasHook hopens
    rw [run_append] at hunopened ⊢
    have hignored : (run step (new nodeId hasHook) before).step
        (.handle (.onOpen hi lo authReq)) = run step (new nodeId hasHook) before :=
      if_neg hrunning
    rw [run_cons, hignored]
    exact hunopened

end Server

end

end BeamSocket.Sdk

/-! ## The flushes one by one -/

namespace BeamSocket.Node

open BeamSocket.Lib BeamSocket.Core BeamSocket.Sdk

/-- The number of events in a flush. -/
def eventCount (flush : Bytes) : ℕ := ((decode flush).getD []).length

/-- Cuts in the image of a list are cuts in the list. -/
theorem exists_flatten_of_map_eq {α β : Type} {f : α → β} {xs : List α} {bs : List (List β)}
    {ys : List β} (h : xs.map f = bs.flatten ++ ys) :
    ∃ (cs : List (List α)) (rest : List α), xs = cs.flatten ++ rest ∧
      cs.map (List.map f) = bs ∧ rest.map f = ys := by
  induction bs generalizing xs with
  | nil => exact ⟨[], xs, rfl, rfl, h⟩
  | cons b bs ih =>
    rw [List.flatten_cons, List.append_assoc] at h
    obtain ⟨c, tail, rfl, rfl, htail⟩ := List.map_eq_append_iff.mp h
    obtain ⟨cs, rest, rfl, rfl, hrest⟩ := ih htail
    exact ⟨c :: cs, rest, by rw [List.flatten_cons, List.append_assoc], rfl, hrest⟩

namespace Bridge

variable {s : Bridge} {batches : List (List (ℕ × EngineEvent))} {rest : List (ℕ × EngineEvent)}

/-- The events of the first `n` flushes, with the tasks that sent them. -/
def flushed (s : Bridge) (n : ℕ) : List (ℕ × EngineEvent) :=
  s.sent.take ((s.drain.flushes.take n).map eventCount).sum

/-- The flushes are `batches`, and `rest` is not flushed. -/
structure Packed (s : Bridge) (batches : List (List (ℕ × EngineEvent)))
    (rest : List (ℕ × EngineEvent)) : Prop where
  sent : s.sent = batches.flatten ++ rest
  waiting : rest.map Prod.snd = s.drain.batch ++ s.tx.queue
  flushes : s.drain.flushes = batches.map fun b => encodeBatch (b.map Prod.snd)
  size : ∀ b ∈ batches, b.length ≤ bridgeBatch

theorem Orderly.packed (h : s.Orderly) : ∃ batches rest, s.Packed batches rest := by
  obtain ⟨taken, hsent, hdrain⟩ := h.flow
  obtain ⟨bs, rfl, hflushes, hsize⟩ := hdrain.split
  rw [List.append_assoc] at hsent
  obtain ⟨batches, rest, hsplit, rfl, hrest⟩ := exists_flatten_of_map_eq hsent
  refine ⟨batches, rest, hsplit, hrest, ?_, ?_⟩
  · rw [hflushes, List.map_map]
    rfl
  · intro b hb
    have := (hsize _ (List.mem_map_of_mem hb)).2
    rwa [List.length_map] at this

theorem Packed.demux_eq (h : s.Packed batches rest) (hshort : s.Short) {H : Type}
    (lossy : Bytes → String) (collect : List (String × String) → H)
    {b : List (ℕ × EngineEvent)} (hb : b ∈ batches) :
    eventCount (encodeBatch (b.map Prod.snd)) = b.length ∧
      (demux lossy collect (encodeBatch (b.map Prod.snd))).1 =
        b.map fun e => called collect e.2 := by
  have hcount : (b.map Prod.snd).length < 2 ^ 32 := by
    rw [List.length_map]
    exact lt_of_le_of_lt (h.size b hb) (by decide)
  have hlengths : ∀ ev ∈ b.map Prod.snd, eventPayloadLen ev < 2 ^ 32 := by
    intro ev hev
    obtain ⟨e, he, rfl⟩ := List.mem_map.mp hev
    refine hshort e ?_
    rw [h.sent]
    exact List.mem_append_left _ (List.mem_flatten.mpr ⟨b, hb, he⟩)
  constructor
  · rw [eventCount, decode_encodeBatch hcount hlengths, Option.getD_some, List.length_map,
      List.length_map]
  · rw [demux_encodeBatch lossy collect hcount hlengths, List.map_map]
    rfl

theorem Packed.count_eq (h : s.Packed batches rest) (hshort : s.Short) (n : ℕ) :
    ((s.drain.flushes.take n).map eventCount).sum = (batches.take n).flatten.length := by
  rw [h.flushes, ← List.map_take, List.map_map, List.length_flatten]
  congr 1
  apply List.map_congr_left
  intro b hb
  exact (h.demux_eq hshort (fun _ => "") id (List.mem_of_mem_take hb)).1

theorem Packed.flushed_eq (h : s.Packed batches rest) (hshort : s.Short) (n : ℕ) :
    s.flushed n = (batches.take n).flatten := by
  have hsplit : s.sent = (batches.take n).flatten ++ ((batches.drop n).flatten ++ rest) := by
    rw [← List.append_assoc, ← List.flatten_append, List.take_append_drop]
    exact h.sent
  rw [flushed, h.count_eq hshort, hsplit, List.take_left]

/-- The next flush holds the next events. -/
theorem Orderly.flushed_succ (h : s.Orderly) (hshort : s.Short) {H : Type}
    (lossy : Bytes → String) (collect : List (String × String) → H) {n : ℕ} {flush : Bytes}
    (hn : s.drain.flushes[n]? = some flush) :
    ∃ batch, s.flushed (n + 1) = s.flushed n ++ batch ∧
      (demux lossy collect flush).1 = batch.map fun e => called collect e.2 := by
  obtain ⟨batches, rest, hpacked⟩ := h.packed
  rw [hpacked.flushes, List.getElem?_map] at hn
  obtain ⟨b, hb, rfl⟩ := Option.map_eq_some_iff.mp hn
  refine ⟨b, ?_, (hpacked.demux_eq hshort lossy collect (List.mem_of_getElem? hb)).2⟩
  rw [hpacked.flushed_eq hshort, hpacked.flushed_eq hshort, List.take_add_one, hb,
    Option.toList_some, List.flatten_append, List.flatten_singleton]

/-- When nothing waits, all flushes together are what was sent. -/
theorem Orderly.flushed_of_drained (h : s.Orderly) (hshort : s.Short) (hdrained : s.Drained) :
    s.flushed s.drain.flushes.length = s.sent := by
  obtain ⟨batches, rest, hpacked⟩ := h.packed
  have hrest : rest = [] := by
    have hwaiting := hpacked.waiting
    rw [hdrained.1, hdrained.2] at hwaiting
    exact List.map_eq_nil_iff.mp hwaiting
  rw [hpacked.flushed_eq hshort, hpacked.flushes, List.length_map, List.take_length, hpacked.sent,
    hrest, List.append_nil]

theorem flushed_take (s : Bridge) (n : ℕ) : s.flushed n <+: s.sent := List.take_prefix _ _

/-- Only the drain loop flushes. -/
theorem drain_step (s : Bridge) (e : BridgeEvent) :
    (s.step e).drain = s.drain ∨ ∃ timer, e = .drain timer := by
  have hstart (i : ℕ) (work : BridgeWork) : (s.start i work).drain = s.drain := by
    unfold start
    split_ifs <;> rfl
  cases e with
  | connect => exact .inl (hstart _ _)
  | authorize => exact .inl (hstart _ _)
  | acquire i =>
    left
    unfold step
    dsimp only
    split
    · unfold acquire
      split_ifs <;> rfl
    · rfl
  | push i =>
    left
    unfold step
    dsimp only
    split
    · unfold push
      split
      · split_ifs <;> rfl
      · rfl
    · rfl
  | conn i e =>
    left
    unfold step
    dsimp only
    split
    · unfold connStep
      split_ifs
      · dsimp only
        split <;> rfl
      · rfl
    · rfl
  | finish i =>
    left
    unfold step
    dsimp only
    split
    · unfold finish
      split <;> rfl
    · rfl
  | hangUp =>
    left
    show (if s.Finished then { s with hungUp := true } else s : Bridge).drain = _
    split_ifs <;> rfl
  | drain timer => exact .inr ⟨timer, rfl⟩

theorem flushes_step (s : Bridge) (e : BridgeEvent) :
    s.drain.flushes <+: (s.step e).drain.flushes := by
  rcases drain_step s e with heq | ⟨timer, rfl⟩
  · exact ⟨[], by rw [heq, List.append_nil]⟩
  · show s.drain.flushes <+: (s.drain.step s.received timer).1.flushes
    rcases DrainLoop.step_cases s.drain s.received timer with heq | ⟨point, heq⟩ |
      ⟨point, -, heq⟩ | ⟨ev, point, -, -, -, heq⟩
    · exact ⟨[], by rw [heq, List.append_nil]⟩
    · rw [heq, DrainLoop.flush]
      split_ifs
      · exact ⟨[], List.append_nil _⟩
      · exact ⟨_, rfl⟩
    · exact ⟨[], by rw [heq, List.append_nil]⟩
    · refine ⟨[], ?_⟩
      rw [heq, List.append_nil]
      rfl

theorem Orderly.flushed_step (h : s.Orderly) (hshort : s.Short) {n : ℕ}
    (hn : n ≤ s.drain.flushes.length) (e : BridgeEvent) : (s.step e).flushed n = s.flushed n := by
  obtain ⟨batches, rest, hpacked⟩ := h.packed
  obtain ⟨flushes, hflushes⟩ := flushes_step s e
  obtain ⟨sent, hsent⟩ := sent_prefix_step s e
  have hle : ((s.drain.flushes.take n).map eventCount).sum ≤ s.sent.length := by
    rw [hpacked.count_eq hshort, ← hpacked.flushed_eq hshort]
    exact (flushed_take s n).length_le
  rw [flushed, flushed, ← hflushes, ← hsent, List.take_append_of_le_length hn,
    List.take_append_of_le_length hle]

end Bridge

end BeamSocket.Node

namespace BeamSocket.Sdk

open BeamSocket.Lib BeamSocket.Mesh BeamSocket.Core BeamSocket.Node

/-! ## What a connection has sent -/

theorem sum_map_ite_eq_count {β : Type} [DecidableEq β] (bs : List β) (b₀ : β) :
    (bs.map fun b => if b₀ = b then 1 else 0).sum = bs.count b₀ := by
  induction bs with
  | nil => rfl
  | cons b bs ih =>
    have hsame : (b == b₀) = true ↔ b₀ = b := by rw [beq_iff_eq, eq_comm]
    rw [List.map_cons, List.sum_cons, ih, List.count_cons, if_congr hsame rfl rfl, Nat.add_comm]

/-- The elements with a property, counted by the value that each of them has. -/
theorem sum_countP_eq {α β : Type} [DecidableEq β] {p : α → Bool} {f : α → Option β} {bs : List β}
    (hbs : bs.Nodup) {xs : List α} (h : ∀ x ∈ xs, p x = true → ∃ b ∈ bs, f x = some b) :
    (bs.map fun b => xs.countP fun x => p x && decide (f x = some b)).sum = xs.countP p := by
  induction xs with
  | nil => simp
  | cons x xs ih =>
    have htail := ih fun y hy => h y (List.mem_cons_of_mem _ hy)
    -- the first element is counted under its own value and no other
    have hhead : (bs.map fun b => if p x && decide (f x = some b) then 1 else 0).sum =
        if p x then 1 else 0 := by
      by_cases hp : p x = true
      · obtain ⟨b₀, hmem, hb₀⟩ := h x List.mem_cons_self hp
        have hcount := sum_map_ite_eq_count bs b₀
        rw [List.count_eq_one_of_mem hbs hmem] at hcount
        simpa [hp, hb₀] using hcount
      · simp [hp]
    simp only [List.countP_cons]
    rw [List.sum_map_add, htail, hhead]

/-- What a socket emits for an event of its connection. -/
def emission : EngineEvent → Option SocketEmit
  | .message _ payload isBinary => some (.message payload isBinary)
  | .connectionClosed _ code reason => some (.close code reason)
  | .connectionOpened _ _ | .authorize _ _ _ _ => none

/-- The events of a connection. -/
def ofConn (id : ConnectionId) (es : List (ℕ × EngineEvent)) : List EngineEvent :=
  (es.filter fun e => (decoded e.2).connId = some id).map Prod.snd

/-- The last event of a connection, once it has been sent. -/
def closeOf : ConnPhase → Option SocketEmit
  | .finished code reason => some (.close code reason)
  | .opening | .running | .closing _ _ => none

/-- What the socket of a connection emits for what the connection has sent, when `kept` are the
    data frames that found room in the channel. -/
def emissions (c : ConnTask) (kept : List (Bytes × Bool)) : List SocketEmit :=
  kept.map (fun m => .message m.1 m.2) ++ (closeOf c.phase).toList

/-- The id of the connection, if the task is one. -/
def connectionOf : BridgeTask → Option ConnectionId
  | ⟨.conn c, _⟩ => some c.id
  | ⟨.authorize .., _⟩ => none

theorem about_called {H : Type} (collect : List (String × String) → H) (id : ConnectionId)
    (ev : EngineEvent) : (called collect ev).about (idHi id) (idLo id) =
      if (decoded ev).connId = some id then some (emission ev) else none := by
  have hhalves : ∀ id', (idHi id' = idHi id ∧ idLo id' = idLo id) ↔ some id' = some id := by
    intro id'
    constructor
    · rintro ⟨hhi, hlo⟩
      rw [← connId_halves id', hhi, hlo, connId_halves]
    · intro heq
      cases heq
      exact ⟨rfl, rfl⟩
  cases ev with
  | message id' payload isBinary => exact if_congr (hhalves id') rfl rfl
  | connectionOpened id' authRequest => exact if_congr (hhalves id') rfl rfl
  | connectionClosed id' code reason => exact if_congr (hhalves id') rfl rfl
  | authorize requestId clientIp url headers => exact (if_neg nofun).symm

/-- What a log says about a connection is said by the events of the connection. -/
theorem filterMap_about {H M : Type} {collect : List (String × String) → H}
    {log : List (ServerEvent H M)} {heard : List (ℕ × EngineEvent)}
    (h : log.filterMap ServerEvent.handled = heard.map fun e => called collect e.2)
    (id : ConnectionId) :
    log.filterMap (·.about (idHi id) (idLo id)) = (ofConn id heard).map emission := by
  have hsplit : log.filterMap (·.about (idHi id) (idLo id)) =
      (log.filterMap ServerEvent.handled).filterMap (·.about (idHi id) (idLo id)) :=
    (List.filterMap_filterMap ..).symm
  rw [hsplit, h]
  clear h hsplit
  induction heard with
  | nil => rfl
  | cons e heard ih =>
    have habout := about_called collect id e.2
    rw [List.map_cons]
    by_cases hid : (decoded e.2).connId = some id
    · rw [if_pos hid] at habout
      rw [List.filterMap_cons_some habout, ih, ofConn, ofConn,
        List.filter_cons_of_pos (by simpa using hid), List.map_cons, List.map_cons]
    · rw [if_neg hid] at habout
      rw [List.filterMap_cons_none habout, ih, ofConn, ofConn,
        List.filter_cons_of_neg (by simpa using hid)]

theorem script_of_opening {c : ConnTask} (h : c.phase = .opening) (kept : List (Bytes × Bool)) :
    c.script kept = [] := by
  rw [ConnTask.script, h]

theorem map_emission_script {c : ConnTask} (h : c.phase ≠ .opening) (kept : List (Bytes × Bool)) :
    (c.script kept).map emission = none :: (emissions c kept).map some := by
  unfold ConnTask.script emissions
  cases hphase : c.phase with
  | opening => exact absurd hphase h
  | running => simp [emission, closeOf]
  | closing code reason => simp [emission, closeOf]
  | finished code reason => simp [emission, closeOf]

theorem countP_script {c : ConnTask} (h : c.phase ≠ .opening) (kept : List (Bytes × Bool)) :
    (c.script kept).countP isMessage = (emissions c kept).countP fun e => !e.isClose := by
  unfold ConnTask.script emissions
  cases hphase : c.phase with
  | opening => exact absurd hphase h
  | running => simp [closeOf, isMessage, SocketEmit.isClose, Function.comp_def]
  | closing code reason => simp [closeOf, isMessage, SocketEmit.isClose, Function.comp_def]
  | finished code reason => simp [closeOf, isMessage, SocketEmit.isClose, Function.comp_def]

theorem upToClose_emissions (c : ConnTask) (kept : List (Bytes × Bool)) :
    SocketEmit.upToClose (emissions c kept) = emissions c kept := by
  refine SocketEmit.upToClose_append (fun e he => ?_) _
  obtain ⟨m, -, rfl⟩ := List.mem_map.mp he
  rfl

/-- If no two connections have the same id, the events of a connection are those that its task
    has sent. -/
theorem ofConn_sent {s : Bridge} (h : s.Orderly) (hapart : s.tasks.Apart connectionOf) {i : ℕ}
    {c : ConnTask} {permit : Bool} (hi : s.conn i = some (c, permit)) :
    ofConn c.id s.sent = s.mine i := by
  unfold ofConn Bridge.mine
  congr 1
  apply List.filter_congr
  intro e he
  rw [decide_eq_decide]
  rcases Bridge.connId_of_mem_sent h he with ⟨c', permit', hconn, hid⟩ | ⟨hconn, hid⟩
  · rw [hid, Option.some.injEq]
    constructor
    · intro heq
      exact hapart e.1 i _ _ c.id (Bridge.lookup_of_conn hconn) (Bridge.lookup_of_conn hi)
        (congrArg some heq) rfl
    · rintro rfl
      cases hi.symm.trans hconn
      rfl
  · rw [hid]
    refine ⟨nofun, ?_⟩
    rintro rfl
    cases hi.symm.trans hconn

/-! ## The system -/

/-- The bridge, the server object, and what is on its way between them. -/
structure Inbound (H M : Type) where
  bridge : Bridge
  /-- The number of flushes that `#onFlush` has been called with. -/
  taken : ℕ
  /-- The calls that `demux` has still to make for the last of them. -/
  calls : List (HandlerCall H)
  server : Server H M
  /-- Exceptions of listeners. -/
  thrown : ℕ

/-- A step of the bridge, of `demux` or of the application. -/
inductive InboundEvent (H M : Type)
  | bridge (e : BridgeEvent)
  /-- JavaScript is called with the next flush. -/
  | onFlush
  /-- `demux` calls the next handler. -/
  | call
  /-- A listener throws, and nothing in `demux` catches that. -/
  | throws
  | settle (k : ℕ) (result : HookResult M)
  | use (k : ℕ) (op : SocketOp)
  | close

namespace Inbound

variable {H M : Type}

/-- A server that has just started its engine. -/
def new (capacity : ℕ) (nodeId : Option NodeId) (hasHook : Bool) : Inbound H M :=
  { bridge := .new capacity, taken := 0, calls := [], server := .new nodeId hasHook, thrown := 0 }

section

variable (lossy : Bytes → String) (collect : List (String × String) → H)

/-- `#onFlush`, once the last flush has been read. -/
def onFlush (s : Inbound H M) : Inbound H M :=
  match s.calls, s.bridge.drain.flushes[s.taken]? with
  | [], some flush => { s with taken := s.taken + 1, calls := (demux lossy collect flush).1 }
  | _, _ => s

variable [EmptyCollection M]

/-- One event. `demux` makes its calls one by one, and an exception of a listener ends it. -/
def step (s : Inbound H M) : InboundEvent H M → Inbound H M
  | .bridge e => { s with bridge := s.bridge.step e }
  | .onFlush => s.onFlush lossy collect
  | .call =>
    match s.calls with
    | call :: calls => { s with calls, server := s.server.step (.handle call) }
    | [] => s
  | .throws => { s with calls := [], thrown := s.thrown + 1 }
  | .settle k result => { s with server := s.server.step (.settle k result) }
  | .use k op => { s with server := s.server.step (.use k op) }
  | .close => { s with server := s.server.step .close }

end

/-- The payload lengths of the events that enter the channel fit their fields. -/
def Fits (s : Inbound H M) : InboundEvent H M → Prop
  | .bridge e => s.bridge.Fits e
  | _ => True

instance (s : Inbound H M) : DecidablePred s.Fits
  | .bridge e => inferInstanceAs (Decidable (s.bridge.Fits e))
  | .onFlush | .call | .throws | .settle .. | .use .. | .close => isTrue trivial

/-- Everything that was sent has reached the handlers. -/
def Delivered (s : Inbound H M) : Prop :=
  s.bridge.Drained ∧ s.taken = s.bridge.drain.flushes.length ∧ s.calls = []

/-! ## What has reached the handlers -/

variable (collect : List (String × String) → H) (nodeId : Option NodeId) (hasHook : Bool)

/-- The flushes that were taken hold the events `past` and `now`, and the calls for `now` are
    still to be made. Of `past` the events `heard` were handled, and all of them if no listener
    threw. `log` is what the server object has gone through. -/
structure Delivers [EmptyCollection M] (log : List (ServerEvent H M))
    (heard past now : List (ℕ × EngineEvent)) (s : Inbound H M) : Prop where
  orderly : s.bridge.Orderly
  short : s.bridge.Short
  taken : s.taken ≤ s.bridge.drain.flushes.length
  flushed : s.bridge.flushed s.taken = past ++ now
  calls : s.calls = now.map fun e => called collect e.2
  part : heard.Sublist past
  unthrown : s.thrown = 0 → heard = past
  server : s.server = run Server.step (.new nodeId hasHook) log
  handled : log.filterMap ServerEvent.handled = heard.map fun e => called collect e.2

variable [EmptyCollection M] {log : List (ServerEvent H M)}
  {heard past now : List (ℕ × EngineEvent)} {s : Inbound H M}

theorem delivers_new (capacity : ℕ) :
    Delivers collect nodeId hasHook [] [] [] [] (new capacity nodeId hasHook : Inbound H M) where
  orderly := Bridge.orderly_new capacity
  short := nofun
  taken := Nat.zero_le _
  flushed := rfl
  calls := rfl
  part := List.nil_sublist _
  unthrown _ := rfl
  server := rfl
  handled := rfl

variable {collect nodeId hasHook}

/-- The server object goes through an event that is not of a flush. -/
theorem Delivers.act (h : s.Delivers collect nodeId hasHook log heard past now)
    {ev : ServerEvent H M} (hev : ev.handled = none) :
    Delivers collect nodeId hasHook (log ++ [ev]) heard past now
      { s with server := s.server.step ev } where
  orderly := h.orderly
  short := h.short
  taken := h.taken
  flushed := h.flushed
  calls := h.calls
  part := h.part
  unthrown := h.unthrown
  server := by rw [run_append, ← h.server, run_cons, run_nil]
  handled := by
    rw [List.filterMap_append, h.handled, List.filterMap_cons_none hev, List.filterMap_nil,
      List.append_nil]

theorem Delivers.bridge (h : s.Delivers collect nodeId hasHook log heard past now)
    {e : BridgeEvent} (hfits : s.bridge.Fits e) :
    Delivers collect nodeId hasHook log heard past now
      { s with bridge := s.bridge.step e } where
  orderly := Bridge.orderly_step _ e h.orderly
  short := Bridge.short_step _ e h.short hfits
  taken := h.taken.trans (Bridge.flushes_step s.bridge e).length_le
  flushed := (h.orderly.flushed_step h.short h.taken e).trans h.flushed
  calls := h.calls
  part := h.part
  unthrown := h.unthrown
  server := h.server
  handled := h.handled

theorem Delivers.onFlush (h : s.Delivers collect nodeId hasHook log heard past now)
    (lossy : Bytes → String) : ∃ now',
      Delivers collect nodeId hasHook log heard past now' (s.onFlush lossy collect) := by
  unfold Inbound.onFlush
  split
  · next flush hcalls hflush =>
    obtain ⟨batch, hflushed, hdemux⟩ := h.orderly.flushed_succ h.short lossy collect hflush
    have hnow : now = [] := List.map_eq_nil_iff.mp (h.calls.symm.trans hcalls)
    have hpast : s.bridge.flushed s.taken = past := by
      rw [h.flushed, hnow, List.append_nil]
    refine ⟨batch, h.orderly, h.short, ?_, ?_, hdemux, h.part, h.unthrown, h.server, h.handled⟩
    · exact (List.getElem?_eq_some_iff.mp hflush).1
    · rw [← hpast]
      exact hflushed
  · exact ⟨now, h⟩

theorem Delivers.call {e : ℕ × EngineEvent}
    (h : s.Delivers collect nodeId hasHook log heard past (e :: now)) :
    Delivers collect nodeId hasHook (log ++ [.handle (called collect e.2)]) (heard ++ [e])
      (past ++ [e]) now
      { s with
        calls := now.map fun e => called collect e.2
        server := s.server.step (.handle (called collect e.2)) } where
  orderly := h.orderly
  short := h.short
  taken := h.taken
  flushed := h.flushed.trans (List.append_cons ..)
  calls := rfl
  part := h.part.append (List.Sublist.refl _)
  unthrown hthrown := by rw [h.unthrown hthrown]
  server := by rw [run_append, ← h.server, run_cons, run_nil]
  handled := by
    rw [List.filterMap_append, h.handled, List.map_append]
    rfl

theorem Delivers.throws (h : s.Delivers collect nodeId hasHook log heard past now) :
    Delivers collect nodeId hasHook log heard (past ++ now) []
      { s with calls := [], thrown := s.thrown + 1 } where
  orderly := h.orderly
  short := h.short
  taken := h.taken
  flushed := h.flushed.trans (List.append_nil _).symm
  calls := rfl
  part := h.part.trans (List.sublist_append_left _ _)
  unthrown hthrown := absurd hthrown (Nat.succ_ne_zero _)
  server := h.server
  handled := h.handled

/-- Some events have reached the server object, and others are on their way. -/
def Sound (collect : List (String × String) → H) (nodeId : Option NodeId) (hasHook : Bool)
    (s : Inbound H M) : Prop :=
  ∃ log heard past now, s.Delivers collect nodeId hasHook log heard past now

theorem sound_step (lossy : Bytes → String) (s : Inbound H M) (ev : InboundEvent H M)
    (h : s.Sound collect nodeId hasHook) (hfits : s.Fits ev) :
    (s.step lossy collect ev).Sound collect nodeId hasHook := by
  obtain ⟨log, heard, past, now, h⟩ := h
  cases ev with
  | bridge e => exact ⟨_, _, _, _, h.bridge hfits⟩
  | onFlush =>
    obtain ⟨now', h'⟩ := h.onFlush lossy
    exact ⟨_, _, _, _, h'⟩
  | call =>
    have hcalls := h.calls
    cases now with
    | nil =>
      unfold step
      dsimp only
      rw [show s.calls = [] from hcalls]
      exact ⟨_, _, _, _, h⟩
    | cons e now =>
      unfold step
      dsimp only
      rw [show s.calls = called collect e.2 :: now.map _ from hcalls]
      exact ⟨_, _, _, _, h.call⟩
  | throws => exact ⟨_, _, _, _, h.throws⟩
  | settle k result => exact ⟨_, _, _, _, h.act rfl⟩
  | use k op => exact ⟨_, _, _, _, h.act rfl⟩
  | close => exact ⟨_, _, _, _, h.act rfl⟩

/-- Everything that was sent was handled. -/
theorem Delivers.heard_eq (h : s.Delivers collect nodeId hasHook log heard past now)
    (hdelivered : s.Delivered) (hthrown : s.thrown = 0) : heard = s.bridge.sent := by
  obtain ⟨hdrained, htaken, hcalls⟩ := hdelivered
  have hnow : now = [] := List.map_eq_nil_iff.mp (h.calls.symm.trans hcalls)
  have hflushed := h.flushed
  rw [htaken, h.orderly.flushed_of_drained h.short hdrained, hnow, List.append_nil] at hflushed
  rw [h.unthrown hthrown, hflushed]

theorem Delivers.past_sent (h : s.Delivers collect nodeId hasHook log heard past now) :
    past <+: s.bridge.sent := by
  have hflushed := Bridge.flushed_take s.bridge s.taken
  rw [h.flushed] at hflushed
  exact (List.prefix_append _ _).trans hflushed

/-- A connection of which no open event was handled has no socket. -/
theorem Delivers.unopened (h : s.Delivers collect nodeId hasHook log heard past now)
    {id : ConnectionId} (hnone : none ∉ (ofConn id heard).map emission) :
    s.server.Unopened (idHi id) (idLo id) := by
  rw [h.server]
  refine Server.unopened_run nodeId hasHook fun ev hmem => ?_
  rw [← Bool.not_eq_true, ← ServerEvent.about_eq_opens]
  intro habout
  refine hnone ?_
  rw [← filterMap_about h.handled]
  exact List.mem_filterMap.mpr ⟨ev, hmem, habout⟩

theorem Delivers.running_iff (h : s.Delivers collect nodeId hasHook log heard past now) :
    s.server.running = true ↔ .close ∉ log := by
  rw [h.server, Server.running_run]
  exact and_iff_right rfl

/-- What is known of a connection that sent `kept`: its socket has emitted some of what it has to
    emit, a beginning of it if no listener threw, and in the end all of it. -/
structure Heard (s : Inbound H M) (c : ConnTask) (kept : List (Bytes × Bool)) (socket : Socket M) :
    Prop where
  opened : c.phase ≠ .opening
  sole : s.server.SocketOf (idHi c.id) (idLo c.id) socket
  part : socket.emitted.Sublist (emissions c kept)
  unthrown : s.thrown = 0 → socket.emitted <+: emissions c kept
  whole : s.Delivered → s.thrown = 0 → s.server.running = true →
    socket.emitted = emissions c kept

omit [EmptyCollection M] in
theorem Heard.socketOf {c : ConnTask} {kept : List (Bytes × Bool)} {socket : Socket M}
    (h : s.Heard c kept socket) : s.server.SocketOf socket.idHi socket.idLo socket := by
  obtain ⟨hhi, hlo, -⟩ := h.sole
  rw [hhi, hlo]
  exact h.sole

theorem Delivers.heard_or (h : s.Delivers collect nodeId hasHook log heard past now)
    (hapart : s.bridge.tasks.Apart connectionOf) {i : ℕ} {c : ConnTask} {permit : Bool}
    (hi : s.bridge.conn i = some (c, permit)) :
    ∃ kept, kept.Sublist c.conn.inbox ∧ ofConn c.id s.bridge.sent = c.script kept ∧
      ((∃ socket, s.Heard c kept socket) ∨ s.server.Unopened (idHi c.id) (idLo c.id) ∧
        (s.Delivered → s.thrown = 0 → s.server.running = true → c.phase = .opening)) := by
  obtain ⟨kept, hkept, hmine⟩ := h.orderly.told i _ (Bridge.lookup_of_conn hi)
  have hsent : ofConn c.id s.bridge.sent = c.script kept :=
    (ofConn_sent h.orderly hapart hi).trans hmine
  refine ⟨kept, hkept, hsent, ?_⟩
  have hpart : (ofConn c.id heard).Sublist (c.script kept) := by
    rw [← hsent]
    exact ((h.part.trans h.past_sent.sublist).filter _).map _
  by_cases hphase : c.phase = .opening
  · right
    rw [script_of_opening hphase, List.sublist_nil] at hpart
    refine ⟨h.unopened ?_, fun _ _ _ => hphase⟩
    rw [hpart]
    exact List.not_mem_nil
  have hwhole : s.Delivered → s.thrown = 0 →
      (ofConn c.id heard).map emission = none :: (emissions c kept).map some := by
    intro hdelivered hthrown
    rw [h.heard_eq hdelivered hthrown, hsent, map_emission_script hphase]
  have hemissions := hpart.map emission
  rw [map_emission_script hphase] at hemissions
  rcases List.sublist_cons_iff.mp hemissions with hemissions | ⟨tail, hsome, htail⟩
  · -- the open event was lost with the rest of its flush
    right
    have hnone : none ∉ (ofConn c.id heard).map emission := by
      intro hmem
      obtain ⟨e, -, he⟩ := List.mem_map.mp (hemissions.subset hmem)
      cases he
    refine ⟨h.unopened hnone, fun hdelivered hthrown _ => absurd ?_ hnone⟩
    rw [hwhole hdelivered hthrown]
    exact List.mem_cons_self
  obtain ⟨news, hnews, rfl⟩ := List.sublist_map_iff.mp htail
  have hlog := (filterMap_about h.handled c.id).trans hsome
  rcases Server.hears_run nodeId hasHook hlog with ⟨hunopened, hclose⟩ |
    ⟨socket, hsocket, hbegin, hend⟩
  · right
    rw [← h.server] at hunopened
    exact ⟨hunopened, fun _ _ hrunning => absurd hclose (h.running_iff.mp hrunning)⟩
  · left
    rw [← h.server] at hsocket
    refine ⟨socket, hphase, hsocket, hbegin.sublist.trans hnews, ?_, ?_⟩
    · intro hthrown
      have hbegins : (ofConn c.id heard).map emission <+: (c.script kept).map emission := by
        rw [← hsent, h.unthrown hthrown]
        exact ((h.past_sent.filter _).map _).map _
      rw [hsome, map_emission_script hphase, List.cons_prefix_cons] at hbegins
      have hreduced := hbegins.2.filterMap id
      simp only [List.filterMap_map, Function.id_comp, List.filterMap_some] at hreduced
      exact hbegin.trans hreduced
    · intro hdelivered hthrown hrunning
      have heq := hsome.symm.trans (hwhole hdelivered hthrown)
      have hall : news = emissions c kept :=
        List.map_injective_iff.mpr (Option.some_injective _) (List.cons.inj heq).2
      rw [hend (h.running_iff.mp hrunning), hall, upToClose_emissions]

/-- A socket is that of a connection. -/
theorem Delivers.heard_object (h : s.Delivers collect nodeId hasHook log heard past now)
    (hapart : s.bridge.tasks.Apart connectionOf) {socket : Socket M}
    (hmem : socket ∈ s.server.objects) :
    ∃ i c permit kept, s.bridge.conn i = some (c, permit) ∧
      c.id = connId socket.idHi socket.idLo ∧ kept.Sublist c.conn.inbox ∧
      ofConn c.id s.bridge.sent = c.script kept ∧ s.Heard c kept socket := by
  obtain ⟨hhi, hlo⟩ := connId_inj (connId_halves (connId socket.idHi socket.idLo))
  have hopened : none ∈ (ofConn (connId socket.idHi socket.idLo) heard).map emission := by
    by_contra hnone
    exact (h.unopened hnone).objects socket hmem ⟨hhi.symm, hlo.symm⟩
  obtain ⟨ev, hev, -⟩ := List.mem_map.mp hopened
  obtain ⟨e, he, rfl⟩ := List.mem_map.mp hev
  obtain ⟨he, hid⟩ := List.mem_filter.mp he
  replace hid := of_decide_eq_true hid
  have hsent : e ∈ s.bridge.sent := (h.part.trans h.past_sent.sublist).subset he
  rcases Bridge.connId_of_mem_sent h.orderly hsent with ⟨c, permit, hconn, hid'⟩ | ⟨-, hid'⟩
  · have hc : c.id = connId socket.idHi socket.idLo := Option.some.inj (hid'.symm.trans hid)
    obtain ⟨kept, hkept, hscript, hheard⟩ := h.heard_or hapart hconn
    refine ⟨e.1, c, permit, kept, hconn, hc, hkept, hscript, ?_⟩
    rw [← hc] at hhi hlo
    rcases hheard with ⟨socket', hheard⟩ | ⟨hunopened, -⟩
    · obtain ⟨-, -, k, hk, hsole⟩ := hheard.sole
      obtain ⟨j, hj⟩ := List.mem_iff_getElem?.mp hmem
      cases hsole j socket hj hhi.symm hlo.symm
      cases hj.symm.trans hk
      exact hheard
    · exact absurd ⟨hhi.symm, hlo.symm⟩ (hunopened.objects socket hmem)
  · cases hid'.symm.trans hid

/-- Each message that was sent was emitted by one socket. -/
theorem Delivers.messages_eq (h : s.Delivers collect nodeId hasHook log heard past now)
    (hapart : s.bridge.tasks.Apart connectionOf) (hdelivered : s.Delivered) (hthrown : s.thrown = 0)
    (hrunning : s.server.running = true) :
    s.server.messages = s.bridge.sent.countP fun e => isMessage e.2 := by
  have hone : ∀ socket ∈ s.server.objects, (socket.emitted.countP fun e => !e.isClose) =
      s.bridge.sent.countP fun e => isMessage e.2 &&
        decide ((decoded e.2).connId = some (connId socket.idHi socket.idLo)) := by
    intro socket hmem
    obtain ⟨i, c, permit, kept, -, hid, -, hscript, hheard⟩ := h.heard_object hapart hmem
    rw [hheard.whole hdelivered hthrown hrunning, ← countP_script hheard.opened, ← hscript, ofConn,
      hid, List.countP_map, List.countP_filter]
    rfl
  have hnodup : (s.server.objects.map fun socket => connId socket.idHi socket.idLo).Nodup := by
    rw [List.nodup_iff_getElem?_ne_getElem?]
    intro j k hjk hk heq
    rw [List.length_map] at hk
    rw [List.getElem?_map, List.getElem?_map, List.getElem?_eq_getElem (hjk.trans hk),
      List.getElem?_eq_getElem hk, Option.map_some, Option.map_some, Option.some.injEq] at heq
    obtain ⟨hhi, hlo⟩ := connId_inj heq
    obtain ⟨_, _, _, _, -, -, -, -, hheard⟩ :=
      h.heard_object hapart (List.getElem_mem (hjk.trans hk))
    obtain ⟨-, -, m, -, hsole⟩ := hheard.socketOf
    have hj := hsole j _ (List.getElem?_eq_getElem (hjk.trans hk)) rfl rfl
    have hk := hsole k _ (List.getElem?_eq_getElem hk) hhi.symm hlo.symm
    omega
  have hcovered : ∀ e ∈ s.bridge.sent, isMessage e.2 = true →
      ∃ id ∈ s.server.objects.map fun socket => connId socket.idHi socket.idLo,
        (decoded e.2).connId = some id := by
    intro e he hmessage
    rcases Bridge.connId_of_mem_sent h.orderly he with ⟨c, permit, hconn, hid⟩ | ⟨-, hid⟩
    · refine ⟨c.id, ?_, hid⟩
      obtain ⟨kept, -, hscript, ⟨socket, hheard⟩ | ⟨-, hopening⟩⟩ := h.heard_or hapart hconn
      · obtain ⟨hhi, hlo, k, hk, -⟩ := hheard.sole
        refine List.mem_map.mpr ⟨socket, List.mem_of_getElem? hk, ?_⟩
        rw [hhi, hlo, connId_halves]
      · rw [script_of_opening (hopening hdelivered hthrown hrunning)] at hscript
        have hmine : e.2 ∈ ofConn c.id s.bridge.sent :=
          List.mem_map.mpr ⟨e, List.mem_filter.mpr ⟨he, decide_eq_true hid⟩, rfl⟩
        rw [hscript] at hmine
        cases hmine
    · cases hev : e.2 with
      | message id payload isBinary =>
        rw [hev] at hid
        cases hid
      | _ =>
        rw [hev] at hmessage
        cases hmessage
  have hsum := sum_countP_eq hnodup hcovered
  rw [List.map_map] at hsum
  rw [Server.messages, List.map_congr_left hone]
  exact hsum

/-- Take any run of the connections, the drain loop, `demux` and the application in which the
    payload length of each event that enters the channel fits its field and no two connections have
    the same id.

    Every socket of the server object is the only one of its connection. What the connection has
    sent into the channel are `kept`, some of the data frames that it read, between its open and its
    close. What the socket has emitted is some of `kept`, in their order, and then at most the close
    of the connection; nothing is missing in between if no listener threw.

    Once everything is delivered, if no listener threw and `io.close()` was not called: every
    connection that has opened has its socket, which has emitted all that the connection has
    sent, and every data frame that was read was emitted by a socket or is counted in
    `bridge_dropped`. -/
theorem inbound_exact (lossy : Bytes → String) (collect : List (String × String) → H)
    (capacity : ℕ) (nodeId : Option NodeId) (hasHook : Bool) (evs : List (InboundEvent H M))
    (hmeet : StepsMeet (step lossy collect) Fits (new capacity nodeId hasHook) evs)
    (hapart : (run (step lossy collect) (new capacity nodeId hasHook)
      evs).bridge.tasks.Apart connectionOf) :
    let s := run (step lossy collect) (new capacity nodeId hasHook) evs
    (∀ socket ∈ s.server.objects, s.server.SocketOf socket.idHi socket.idLo socket ∧
      ∃ i c permit kept, s.bridge.conn i = some (c, permit) ∧
        c.id = connId socket.idHi socket.idLo ∧ kept.Sublist c.conn.inbox ∧
        ofConn c.id s.bridge.sent = c.script kept ∧
        socket.emitted.Sublist (emissions c kept) ∧
        (s.thrown = 0 → socket.emitted <+: emissions c kept)) ∧
    (s.Delivered → s.thrown = 0 → s.server.running = true →
      (∀ i c permit, s.bridge.conn i = some (c, permit) → c.phase ≠ .opening →
        ∃ socket kept, s.server.SocketOf (idHi c.id) (idLo c.id) socket ∧
          kept.Sublist c.conn.inbox ∧ ofConn c.id s.bridge.sent = c.script kept ∧
          socket.emitted = emissions c kept) ∧
      s.bridge.reads = s.server.messages + s.bridge.tx.bridgeDropped) := by
  intro s
  have hsound : s.Sound collect nodeId hasHook :=
    run_invariant_of_stepsMeet (sound_step lossy)
      ⟨_, _, _, _, delivers_new collect nodeId hasHook capacity⟩ hmeet
  replace hapart : s.bridge.tasks.Apart connectionOf := hapart
  clear_value s
  obtain ⟨log, heard, past, now, h⟩ := hsound
  refine ⟨?_, ?_⟩
  · intro socket hmem
    obtain ⟨i, c, permit, kept, hconn, hid, hkept, hsent, hheard⟩ := h.heard_object hapart hmem
    exact ⟨hheard.socketOf, i, c, permit, kept, hconn, hid, hkept, hsent, hheard.part,
      hheard.unthrown⟩
  · intro hdelivered hthrown hrunning
    refine ⟨?_, ?_⟩
    · intro i c permit hconn hphase
      obtain ⟨kept, hkept, hsent, ⟨socket, hheard⟩ | ⟨-, hopening⟩⟩ := h.heard_or hapart hconn
      · exact ⟨socket, kept, hheard.sole, hkept, hsent, hheard.whole hdelivered hthrown hrunning⟩
      · exact absurd (hopening hdelivered hthrown hrunning) hphase
    · rw [h.messages_eq hapart hdelivered hthrown hrunning]
      exact h.orderly.count

/-- A connection over a channel with one slot opens, reads two text frames before the drain
    loop gets on, and ends; JavaScript takes each flush as it comes. -/
def twoFrames : List (InboundEvent Unit (List String)) :=
  [.bridge (.connect 0 7 none 1024 .dropNewest ⟨1000, 1000⟩), .bridge (.acquire 0),
    .bridge (.push 0), .bridge (.drain false), .bridge (.drain false), .onFlush, .call,
    .use 0 (.sendText "hello"),
    .bridge (.conn 0 (.reader .pending)), .bridge (.conn 0 (.reader .pending)),
    .bridge (.conn 0 (.reader (.ready (some (.ok (.text [104, 105])))))),
    .bridge (.conn 0 (.reader .pending)),
    .bridge (.conn 0 (.reader (.ready (some (.ok (.text [104, 111])))))),
    .bridge (.drain false), .bridge (.drain false), .onFlush, .call,
    .bridge (.conn 0 (.reader .pending)), .bridge (.conn 0 (.reader (.ready none))),
    .bridge (.conn 0 .teardown), .bridge (.conn 0 (.writer .accepted)),
    .bridge (.conn 0 (.writer .accepted)), .bridge (.finish 0), .bridge (.acquire 0),
    .bridge (.push 0), .bridge (.drain false), .bridge (.drain false), .onFlush, .call]

/-- The first frame reaches the application, and the second one is counted. -/
theorem twoFrames_accounted :
    let s := run (step (fun _ => "") fun _ => ()) (new 1 none false) twoFrames
    s.server.messages = 1 ∧ s.bridge.tx.bridgeDropped = 1 ∧
      s.bridge.reads = s.server.messages + s.bridge.tx.bridgeDropped := by
  intro s
  have hkeys : s.bridge.tasks.entries.keys = [0] := by decide +kernel
  have honly : ∀ i T, s.bridge.tasks.lookup i = some T → i = 0 := by
    intro i T hi
    have hmem : i ∈ s.bridge.tasks.entries.keys :=
      AList.lookup_isSome.mp (Option.isSome_iff_exists.mpr ⟨T, hi⟩)
    rw [hkeys] at hmem
    exact List.mem_singleton.mp hmem
  have hapart : s.bridge.tasks.Apart connectionOf := by
    intro i j T U _ hi hj _ _
    rw [honly i T hi, honly j U hj]
  have hdelivered : s.Delivered := ⟨⟨by decide +kernel, by decide +kernel⟩, by decide +kernel,
    by decide +kernel⟩
  have hexact := inbound_exact (fun _ => "") (fun _ => ()) 1 none false twoFrames
    (by decide +kernel) hapart
  exact ⟨by decide +kernel, by decide +kernel,
    (hexact.2 hdelivered (by decide +kernel) (by decide +kernel)).2⟩

end Inbound

end BeamSocket.Sdk
