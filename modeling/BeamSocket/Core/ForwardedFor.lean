import BeamSocket.Core.ClientIp

/-!
# Several `X-Forwarded-For` lines

A proxy may append its hop as a header line of its own. `header_value`
(`crates/core/src/limits.rs`, lines 327–332) returns the first line only, which is the
one that the client sent. The resolver then walks the hops that the client chose, and
not those that the proxies appended.

* `joined_resolves_iff`: when the first line gives the same address as all lines
  joined.
* `Proxied.forged_line`: a client that chooses its address.
-/

namespace BeamSocket.Core

/-- The line is an `X-Forwarded-For` line. -/
def isForwardedFor (h : String × String) : Bool := eqIgnoreAsciiCase h.1 "x-forwarded-for"

/-- The values of the `X-Forwarded-For` lines. -/
def forwardedLines (headers : List (String × String)) : List String :=
  (headers.filter isForwardedFor).map Prod.snd

/-- The values joined by commas. -/
def joinLines (lines : List String) : String :=
  String.ofList ([','].intercalate (lines.map String.toList))

/-- The headers with one `X-Forwarded-For` line, in the place of the first, that holds
    the values of all. -/
def joinForwarded : List (String × String) → List (String × String)
  | [] => []
  | h :: headers =>
    if isForwardedFor h then
      (h.1, joinLines (h.2 :: forwardedLines headers)) :: headers.filter (!isForwardedFor ·)
    else h :: joinForwarded headers

theorem headerValue_eq (headers : List (String × String)) :
    headerValue headers "x-forwarded-for" = (forwardedLines headers).head? := by
  unfold headerValue forwardedLines
  rw [List.head?_map, List.head?_filter]
  rfl

theorem headerValue_joinForwarded (headers : List (String × String)) :
    headerValue (joinForwarded headers) "x-forwarded-for" =
      match forwardedLines headers with
      | [] => none
      | first :: later => some (joinLines (first :: later)) := by
  induction headers with
  | nil => rfl
  | cons h headers ih =>
    cases hh : isForwardedFor h with
    | true =>
      have hname : eqIgnoreAsciiCase h.1 "x-forwarded-for" = true := hh
      simp [joinForwarded, headerValue, forwardedLines, hh, hname]
    | false =>
      have hname : eqIgnoreAsciiCase h.1 "x-forwarded-for" = false := hh
      have hskip : forwardedLines (h :: headers) = forwardedLines headers := by
        simp [forwardedLines, hh]
      rw [hskip, ← ih]
      simp [joinForwarded, headerValue, hh, hname]

theorem hops_joinLines (first : String) (later : List String) :
    hops (joinLines (first :: later)) = hops first ++ later.flatMap hops := by
  unfold hops joinLines
  rw [String.toList_ofList]
  induction later generalizing first with
  | nil => simp [List.intercalate]
  | cons next later ih =>
    rw [List.flatMap_cons, ← ih next, ← List.splitOn_append_cons_self]
    simp [List.intercalate]

section

variable {ν : Type} (contains : ν → IpAddr → Bool) (parse : List Char → Option IpAddr)

/-- The rightmost hop that is an address. -/
def lastParsed (l : List (Option IpAddr)) : Option IpAddr := l.reverse.findSome? id

/-- The hops of the first line decide as those of all lines do. For trusted proxies:
    the hops of the later lines are all trusted; or they decide by a hop like the one
    that the first line decides by; or both lead to the peer, the later lines by a
    malformed hop and the first line by trusted hops that start at the peer. -/
def Unaffected (r : ClientIpResolver ν) (peer : IpAddr) : List String → Prop
  | [] => True
  | first :: later =>
    let ours := parsedHops parse first
    let theirs := later.flatMap (parsedHops parse)
    match r with
    | .peerOnly => True
    | .rightmostForwarded =>
      lastParsed theirs = none ∨ lastParsed ours = lastParsed theirs ∨
        (lastParsed ours = none ∧ lastParsed theirs = some peer.toCanonical)
    | .trustedProxies nets =>
      trusted contains nets peer.toCanonical = false ∨
        decidingHop contains nets theirs = none ∨
        decidingHop contains nets ours = decidingHop contains nets theirs ∨
        (decidingHop contains nets ours = none ∧ decidingHop contains nets theirs = some none ∧
          ours.head? = some (some peer.toCanonical))

variable {contains parse} {nets : List ν} {peer : IpAddr}

theorem parsedHops_joinLines (first : String) (later : List String) :
    parsedHops parse (joinLines (first :: later)) =
      parsedHops parse first ++ later.flatMap (parsedHops parse) := by
  unfold parsedHops
  rw [hops_joinLines, List.map_append, List.map_flatMap]

theorem rightmostHop_eq (xff : String) :
    rightmostHop parse xff = lastParsed (parsedHops parse xff) := by
  unfold rightmostHop lastParsed parsedHops
  rw [← List.map_reverse, List.findSome?_map]
  rfl

theorem lastParsed_append (l l' : List (Option IpAddr)) :
    lastParsed (l ++ l') = (lastParsed l').or (lastParsed l) := by
  unfold lastParsed
  rw [List.reverse_append, List.findSome?_append]

theorem untrusted_of_decidingHop {l : List (Option IpAddr)} {ip : IpAddr}
    (h : decidingHop contains nets l = some (some ip)) : trusted contains nets ip = false := by
  have hnot := List.find?_some h
  simpa using hnot

theorem trusted_of_decidingHop_none {l : List (Option IpAddr)} {hop : Option IpAddr}
    (h : decidingHop contains nets l = none) (hmem : hop ∈ l) :
    ∃ ip, hop = some ip ∧ trusted contains nets ip = true := by
  rw [decidingHop, List.find?_eq_none] at h
  have hany := h hop (List.mem_reverse.mpr hmem)
  rw [Bool.not_eq_true, Bool.not_eq_false', Option.any_eq_true] at hany
  exact hany

theorem rightmost_unaffected_iff (ours theirs : Option IpAddr) :
    (theirs.or ours).getD peer = ours.getD peer ↔
      theirs = none ∨ ours = theirs ∨ (ours = none ∧ theirs = some peer) := by
  cases theirs with
  | none => simp
  | some ip =>
    cases ours with
    | none => simp
    | some ip' => simp [eq_comm]

/-- An untrusted address is neither the peer nor a trusted hop, so the two walks meet
    only where they decide alike. -/
theorem trusted_unaffected_iff {ours theirs : List (Option IpAddr)} (hours : ours ≠ [])
    (hpeer : trusted contains nets peer = true) :
    ((decidingHop contains nets (ours ++ theirs)).getD (ours ++ theirs).head?.join).getD peer =
        ((decidingHop contains nets ours).getD ours.head?.join).getD peer ↔
      decidingHop contains nets theirs = none ∨
        decidingHop contains nets ours = decidingHop contains nets theirs ∨
        (decidingHop contains nets ours = none ∧ decidingHop contains nets theirs = some none ∧
          ours.head? = some (some peer)) := by
  rw [decidingHop_append, List.head?_append_of_ne_nil _ hours]
  cases htheirs : decidingHop contains nets theirs with
  | none => simp
  | some hop =>
    -- the later lines decide
    have hne : ∀ ip, hop = some ip → ∀ ip', trusted contains nets ip' = true → ip ≠ ip' := by
      intro ip hip ip' hip' heq
      subst hip heq
      rw [untrusted_of_decidingHop htheirs] at hip'
      cases hip'
    cases hours' : decidingHop contains nets ours with
    | none =>
      obtain ⟨head, rest, rfl⟩ := List.exists_cons_of_ne_nil hours
      obtain ⟨ip', rfl, hip'⟩ := trusted_of_decidingHop_none hours' (List.mem_cons_self ..)
      cases hop with
      | none => simp [eq_comm]
      | some ip => simpa using hne ip rfl ip' hip'
    | some hop' =>
      cases hop with
      | none =>
        cases hop' with
        | none => simp
        | some ip =>
          have hip : ip ≠ peer := by
            rintro rfl
            rw [untrusted_of_decidingHop hours'] at hpeer
            cases hpeer
          simpa using hip.symm
      | some ip =>
        cases hop' with
        | none => simpa using hne ip rfl peer hpeer
        | some ip' => simp [eq_comm]

/-- The address that the resolver takes from the first `X-Forwarded-For` line is the
    one it takes from all of them joined, iff the first line decides as all do. -/
theorem joined_resolves_iff (contains : ν → IpAddr → Bool) (parse : List Char → Option IpAddr)
    (r : ClientIpResolver ν) (peer : IpAddr) (headers : List (String × String)) :
    resolveClientIp contains parse r peer headers =
        resolveClientIp contains parse r peer (joinForwarded headers) ↔
      Unaffected contains parse r peer (forwardedLines headers) := by
  unfold resolveClientIp
  rw [headerValue_joinForwarded, headerValue_eq]
  cases hlines : forwardedLines headers with
  | nil => exact iff_of_true rfl trivial
  | cons first later =>
    rw [List.head?_cons, eq_comm]
    cases r with
    | peerOnly => exact iff_of_true rfl trivial
    | rightmostForwarded =>
      unfold ClientIpResolver.resolve
      dsimp only
      rw [Option.bind_some, Option.bind_some, rightmostHop_eq, rightmostHop_eq,
        parsedHops_joinLines, lastParsed_append]
      exact rightmost_unaffected_iff _ _
    | trustedProxies nets =>
      cases hpeer : trusted contains nets peer.toCanonical with
      | false =>
        rw [resolve_of_untrusted hpeer, resolve_of_untrusted hpeer]
        exact iff_of_true rfl (Or.inl hpeer)
      | true =>
        rw [resolve_of_trusted hpeer, resolve_of_trusted hpeer, parsedHops_joinLines]
        have hours : parsedHops parse first ≠ [] := fun hnil =>
          List.splitOn_ne_nil ',' first.toList (List.map_eq_nil_iff.mp hnil)
        rw [trusted_unaffected_iff hours hpeer]
        unfold Unaffected
        dsimp only
        rw [hpeer]
        simp

end

/-! ## A client that sends its own line -/

namespace Proxied

/-- The line of the client, and the line that the proxy appends. -/
def forgedHeaders : List (String × String) :=
  [("x-forwarded-for", "6.6.6.6"), ("x-forwarded-for", "203.0.113.9")]

theorem forged_line :
    joinForwarded forgedHeaders = [("x-forwarded-for", "6.6.6.6,203.0.113.9")] ∧
      resolveClientIp contains parse (.trustedProxies [10]) proxy forgedHeaders =
        .v4 0x06060606 ∧
      resolveClientIp contains parse (.trustedProxies [10]) proxy (joinForwarded forgedHeaders) =
        client := by
  refine ⟨?_, ?_, ?_⟩ <;> decide +kernel

end Proxied

end BeamSocket.Core
