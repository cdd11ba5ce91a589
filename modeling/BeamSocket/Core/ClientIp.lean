import BeamSocket.Core.Config

/-!
# Client addresses

Model of the client-IP resolver (`crates/core/src/limits.rs`, lines 37–151), of the
lookup of `X-Forwarded-For` (lines 282–287 and 327–332) and of what they call. The
parsers of addresses and networks, and whether a network contains an address, are
parameters.

The loop over the hops is a search: `decidingHop` is the first hop from the right
that is not a trusted address, and `resolveViaTrustedChain_eq` says that it decides.

* `resolve_trustedProxies`: what the resolver returns with a list of trusted
  networks, and that neither the hops to the left of the deciding one nor the IPv4 or
  IPv6 form of an address matter.
-/

namespace BeamSocket.Core

/-- `std::net::IpAddr`. -/
inductive IpAddr
  | v4 (bits : UInt32)
  | v6 (bits : BitVec 128)
  deriving DecidableEq, Repr

namespace IpAddr

/-- `IpAddr::to_canonical`: an address of `::ffff:0:0/96` becomes the IPv4 address
    that it maps. -/
def toCanonical : IpAddr → IpAddr
  | v4 bits => v4 bits
  | v6 bits =>
    if bits.toNat / 2 ^ 32 = 0xffff then v4 (UInt32.ofNat (bits.toNat % 2 ^ 32)) else v6 bits

/-- The IPv4-mapped IPv6 form of an IPv4 address. -/
def mapped : IpAddr → IpAddr
  | v4 bits => v6 (BitVec.ofNat 128 (0xffff * 2 ^ 32 + bits.toNat))
  | v6 bits => v6 bits

theorem toCanonical_mapped (ip : IpAddr) : ip.mapped.toCanonical = ip.toCanonical := by
  cases ip with
  | v6 bits => rfl
  | v4 bits =>
    have hlt : bits.toNat < 2 ^ 32 := bits.toNat_lt
    have hbits : (BitVec.ofNat 128 (0xffff * 2 ^ 32 + bits.toNat)).toNat =
        0xffff * 2 ^ 32 + bits.toNat := by
      rw [BitVec.toNat_ofNat]
      omega
    show (if _ / 2 ^ 32 = 0xffff then v4 (UInt32.ofNat (_ % 2 ^ 32)) else v6 _) = v4 bits
    rw [hbits, if_pos (by omega),
      show (0xffff * 2 ^ 32 + bits.toNat) % 2 ^ 32 = bits.toNat by omega, UInt32.ofNat_toNat]

end IpAddr

/-- `char::is_whitespace`: the Unicode property `White_Space`. -/
def isWhitespace (c : Char) : Bool :=
  let n := c.toNat
  (0x9 ≤ n ∧ n ≤ 0xd) ∨ n = 0x20 ∨ n = 0x85 ∨ n = 0xa0 ∨ n = 0x1680 ∨
    (0x2000 ≤ n ∧ n ≤ 0x200a) ∨ n = 0x2028 ∨ n = 0x2029 ∨ n = 0x202f ∨ n = 0x205f ∨ n = 0x3000

/-- `str::trim`. -/
def trim (s : List Char) : List Char :=
  ((s.dropWhile isWhitespace).reverse.dropWhile isWhitespace).reverse

/-- `str::eq_ignore_ascii_case`. -/
def eqIgnoreAsciiCase (a b : String) : Bool :=
  a.toList.map Char.toLower = b.toList.map Char.toLower

/-- `header_value` (lines 327–332). -/
def headerValue (headers : List (String × String)) (name : String) : Option String :=
  (headers.find? fun h => eqIgnoreAsciiCase h.1 name).map Prod.snd

section

variable {ν : Type} (contains : ν → IpAddr → Bool) (parse : List Char → Option IpAddr)

/-- `trusted` (lines 109–111). -/
def trusted (nets : List ν) (ip : IpAddr) : Bool := nets.any fun n => contains n ip

/-- `parse_hop` (lines 115–117). -/
def parseHop (s : List Char) : Option IpAddr := (parse (trim s)).map IpAddr.toCanonical

/-- `xff.split(',')`. -/
def hops (xff : String) : List (List Char) := xff.toList.splitOn ','

/-- `rightmost_hop` (lines 120–122). -/
def rightmostHop (xff : String) : Option IpAddr := (hops xff).reverse.findSome? (parseHop parse)

/-- The loop of `resolve_via_trusted_chain` (lines 131–145) over the hops with their
    indices, from the right. -/
def chainLoop (nets : List ν) (peer : IpAddr) :
    List (List Char × ℕ) → (leftmostTrusted : Option IpAddr) → IpAddr
  | [], leftmostTrusted => leftmostTrusted.getD peer
  | (part, i) :: rest, leftmostTrusted =>
    match parseHop parse part with
    | some ip =>
      if trusted contains nets ip then
        chainLoop nets peer rest (if i = 0 then some ip else leftmostTrusted)
      else ip
    | none => peer

/-- `resolve_via_trusted_chain` (lines 128–151). -/
def resolveViaTrustedChain (nets : List ν) (peer : IpAddr) (xff : String) : IpAddr :=
  chainLoop contains parse nets peer (hops xff).zipIdx.reverse none

/-- `ClientIpResolver::resolve` (lines 81–100). -/
def ClientIpResolver.resolve (r : ClientIpResolver ν) (peer : IpAddr)
    (forwardedFor : Option String) : IpAddr :=
  let peer := peer.toCanonical
  match r with
  | .peerOnly => peer
  | .rightmostForwarded => (forwardedFor.bind (rightmostHop parse)).getD peer
  | .trustedProxies nets =>
    if trusted contains nets peer then
      match forwardedFor with
      | some xff => resolveViaTrustedChain contains parse nets peer xff
      | none => peer
    else peer

/-- `Gate::resolve_client_ip` (lines 284–287). -/
def resolveClientIp (r : ClientIpResolver ν) (peer : IpAddr) (headers : List (String × String)) :
    IpAddr :=
  r.resolve contains parse peer (headerValue headers "x-forwarded-for")

/-! ## The hop that decides -/

/-- The hops of the header, parsed. -/
def parsedHops (xff : String) : List (Option IpAddr) := (hops xff).map (parseHop parse)

/-- The first hop from the right that is not a trusted address. -/
def decidingHop (nets : List ν) (l : List (Option IpAddr)) : Option (Option IpAddr) :=
  l.reverse.find? fun h => !h.any (trusted contains nets)

variable {contains parse} {nets : List ν} {peer : IpAddr} {xff : String}

theorem decidingHop_append (l l' : List (Option IpAddr)) :
    decidingHop contains nets (l ++ l') =
      (decidingHop contains nets l').or (decidingHop contains nets l) := by
  unfold decidingHop
  rw [List.reverse_append, List.find?_append]

theorem decidingHop_singleton (h : Option IpAddr) :
    decidingHop contains nets [h] = if h.any (trusted contains nets) then none else some h := by
  cases hh : h.any (trusted contains nets) <;> simp [decidingHop, hh]

theorem decidingHop_eq_none {l : List (Option IpAddr)}
    (h : ∀ hop ∈ l, hop.any (trusted contains nets) = true) :
    decidingHop contains nets l = none := by
  rw [decidingHop, List.find?_eq_none]
  intro hop hmem
  rw [List.mem_reverse] at hmem
  simp [h hop hmem]

theorem chainLoop_eq (l : List (List Char)) (hl : l ≠ []) (leftmostTrusted : Option IpAddr) :
    chainLoop contains parse nets peer l.zipIdx.reverse leftmostTrusted =
      ((decidingHop contains nets (l.map (parseHop parse))).getD
        (l.map (parseHop parse)).head?.join).getD peer := by
  -- from the right, as the loop goes
  induction l using List.reverseRecOn generalizing leftmostTrusted with
  | nil => exact absurd rfl hl
  | append_singleton l part ih =>
    rw [List.zipIdx_append, List.reverse_append, List.map_append, decidingHop_append,
      List.map_singleton, decidingHop_singleton]
    show chainLoop contains parse nets peer ((part, 0 + l.length) :: l.zipIdx.reverse) _ = _
    unfold chainLoop
    cases hpart : parseHop parse part with
    | none => rfl
    | some ip =>
      cases hip : trusted contains nets ip with
      | false => simp [hip]
      | true =>
        have hany : (some ip).any (trusted contains nets) = true := hip
        dsimp only
        rw [if_pos hip, if_pos hany, Option.none_or]
        by_cases hnil : l = []
        · subst hnil
          simp [chainLoop, decidingHop]
        · rw [ih hnil, List.head?_append_of_ne_nil _ (by simpa using hnil)]

/-- The loop finds the hop that decides, or goes through to the leftmost one. -/
theorem resolveViaTrustedChain_eq :
    resolveViaTrustedChain contains parse nets peer xff =
      ((decidingHop contains nets (parsedHops parse xff)).getD
        (parsedHops parse xff).head?.join).getD peer :=
  chainLoop_eq _ (List.splitOn_ne_nil _ _) _

/-! ## Trusted proxies -/

variable (contains parse nets) in
/-- The hop is the address of a trusted proxy. -/
def IsTrusted (s : List Char) : Prop :=
  ∃ ip, parseHop parse s = some ip ∧ trusted contains nets ip = true

variable (parse) in
/-- The hop `s'` is the hop `s`, or the IPv4-mapped IPv6 form of its address. -/
def IsForm (s s' : List Char) : Prop :=
  s' = s ∨ ∃ ip, parse (trim s) = some ip ∧ parse (trim s') = some ip.mapped

theorem parseHop_of_isForm {s s' : List Char} (h : IsForm parse s s') :
    parseHop parse s' = parseHop parse s := by
  rcases h with rfl | ⟨ip, hip, hip'⟩
  · rfl
  · unfold parseHop
    rw [hip, hip', Option.map_some, Option.map_some, ip.toCanonical_mapped]

theorem parsedHops_of_forms {xff xff' : String}
    (h : List.Forall₂ (IsForm parse) (hops xff) (hops xff')) :
    parsedHops parse xff' = parsedHops parse xff := by
  unfold parsedHops
  generalize hops xff = l at h
  generalize hops xff' = l' at h
  induction h with
  | nil => rfl
  | cons hs _ ih => rw [List.map_cons, List.map_cons, parseHop_of_isForm hs, ih]

/-- The hops right of `hop` are trusted, so it decides if it is not. -/
theorem decidingHop_of_right {left right : List (List Char)} {hop : List Char}
    (h : hops xff = left ++ hop :: right)
    (hright : ∀ s ∈ right, IsTrusted contains parse nets s) :
    decidingHop contains nets (parsedHops parse xff) =
      if (parseHop parse hop).any (trusted contains nets) then
        decidingHop contains nets (left.map (parseHop parse))
      else some (parseHop parse hop) := by
  have hnone : decidingHop contains nets (right.map (parseHop parse)) = none := by
    apply decidingHop_eq_none
    intro parsed hmem
    obtain ⟨s, hs, rfl⟩ := List.mem_map.mp hmem
    obtain ⟨ip, hip, htrusted⟩ := hright s hs
    rw [hip]
    exact htrusted
  unfold parsedHops
  rw [h, List.map_append, List.map_cons, decidingHop_append, ← List.singleton_append,
    decidingHop_append, hnone, Option.none_or, decidingHop_singleton]
  split_ifs
  · exact Option.none_or
  · rfl

/-- A hop that is not trusted hides what is left of it. -/
theorem decidingHop_hides (left left' right : List (List Char)) {hop : List Char}
    (hhop : ¬ IsTrusted contains parse nets hop) :
    decidingHop contains nets ((left ++ hop :: right).map (parseHop parse)) =
      decidingHop contains nets ((left' ++ hop :: right).map (parseHop parse)) ∧
    (decidingHop contains nets ((left ++ hop :: right).map (parseHop parse))).isSome := by
  have hsome : ∃ first, decidingHop contains nets ((hop :: right).map (parseHop parse)) =
      some first := by
    have hnot : (parseHop parse hop).any (trusted contains nets) = false := by
      rw [Bool.eq_false_iff]
      intro hany
      rw [Option.any_eq_true] at hany
      exact hhop hany
    rw [List.map_cons, ← List.singleton_append, decidingHop_append, decidingHop_singleton, hnot]
    cases decidingHop contains nets (right.map (parseHop parse)) with
    | none => exact ⟨_, rfl⟩
    | some first => exact ⟨first, rfl⟩
  obtain ⟨first, hfirst⟩ := hsome
  rw [List.map_append, List.map_append, decidingHop_append, decidingHop_append, hfirst]
  exact ⟨rfl, rfl⟩

theorem resolve_of_trusted (h : trusted contains nets peer.toCanonical = true) :
    (ClientIpResolver.trustedProxies nets).resolve contains parse peer (some xff) =
      ((decidingHop contains nets (parsedHops parse xff)).getD
        (parsedHops parse xff).head?.join).getD peer.toCanonical :=
  (if_pos h).trans resolveViaTrustedChain_eq

theorem resolve_of_untrusted (h : trusted contains nets peer.toCanonical = false)
    (forwardedFor : Option String) :
    (ClientIpResolver.trustedProxies nets).resolve contains parse peer forwardedFor =
      peer.toCanonical :=
  if_neg (by rw [h]; exact nofun)

/-- What the resolver returns with trusted networks: the peer if it is not trusted;
    else, from the right, the first hop that is an untrusted address, the peer if a hop
    that is none comes first, and the leftmost hop if all are trusted. So what stands
    left of the first hop that is not trusted does not matter, nor whether an IPv4
    address is written in its IPv6 form. -/
theorem resolve_trustedProxies (contains : ν → IpAddr → Bool)
    (parse : List Char → Option IpAddr) (nets : List ν) (peer : IpAddr) :
    let resolve := (ClientIpResolver.trustedProxies nets).resolve contains parse
    (trusted contains nets peer.toCanonical = false →
      ∀ forwardedFor, resolve peer forwardedFor = peer.toCanonical) ∧
    (trusted contains nets peer.toCanonical = true →
      resolve peer none = peer.toCanonical ∧
      ∀ xff left hop right, hops xff = left ++ hop :: right →
        (∀ s ∈ right, IsTrusted contains parse nets s) →
        (parseHop parse hop = none → resolve peer (some xff) = peer.toCanonical) ∧
        ∀ ip, parseHop parse hop = some ip →
          trusted contains nets ip = false ∨ left = [] → resolve peer (some xff) = ip) ∧
    (∀ xff xff' left left' hop right, hops xff = left ++ hop :: right →
      hops xff' = left' ++ hop :: right → ¬ IsTrusted contains parse nets hop →
      resolve peer (some xff) = resolve peer (some xff')) ∧
    (∀ forwardedFor, resolve peer.mapped forwardedFor = resolve peer forwardedFor) ∧
    (∀ xff xff', List.Forall₂ (IsForm parse) (hops xff) (hops xff') →
      resolve peer (some xff') = resolve peer (some xff)) := by
  intro resolve
  have hresolve : resolve = (ClientIpResolver.trustedProxies nets).resolve contains parse := rfl
  clear_value resolve
  subst hresolve
  refine ⟨resolve_of_untrusted, fun hpeer => ⟨if_pos hpeer, ?_⟩, ?_, ?_, ?_⟩
  · intro xff left hop right hxff hright
    have hdeciding := decidingHop_of_right hxff hright
    refine ⟨fun hhop => ?_, fun ip hhop hor => ?_⟩
    · rw [resolve_of_trusted hpeer, hdeciding, hhop]
      rfl
    · rw [resolve_of_trusted hpeer, hdeciding, hhop]
      cases hip : trusted contains nets ip with
      | false => simp [hip]
      | true =>
        have hleft : left = [] := by
          rcases hor with hfalse | hleft
          · rw [hip] at hfalse
            cases hfalse
          · exact hleft
        subst hleft
        have hhead : (parsedHops parse xff).head? = some (some ip) := by
          unfold parsedHops
          rw [hxff, List.nil_append, List.map_cons, hhop]
          rfl
        rw [hhead]
        simp [hip, decidingHop]
  · intro xff xff' left left' hop right hxff hxff' hhop
    cases hpeer : trusted contains nets peer.toCanonical with
    | false => rw [resolve_of_untrusted hpeer, resolve_of_untrusted hpeer]
    | true =>
      obtain ⟨heq, hsome⟩ := decidingHop_hides left left' right hhop
      rw [resolve_of_trusted hpeer, resolve_of_trusted hpeer]
      unfold parsedHops
      rw [hxff, hxff', ← heq]
      obtain ⟨first, hfirst⟩ := Option.isSome_iff_exists.mp hsome
      rw [hfirst]
      rfl
  · intro forwardedFor
    unfold ClientIpResolver.resolve
    rw [peer.toCanonical_mapped]
  · intro xff xff' hforms
    cases hpeer : trusted contains nets peer.toCanonical with
    | false => rw [resolve_of_untrusted hpeer, resolve_of_untrusted hpeer]
    | true => rw [resolve_of_trusted hpeer, resolve_of_trusted hpeer, parsedHops_of_forms hforms]

end

/-! ## A proxy in `10.0.0.0/8` -/

namespace Proxied

/-- One decimal byte of a dotted quad. -/
def octet (s : List Char) : Option ℕ :=
  let n := s.foldl (fun n c => 10 * n + (c.toNat - '0'.toNat)) 0
  if s ≠ [] ∧ s.length ≤ 3 ∧ s.all Char.isDigit ∧ (s.head? ≠ some '0' ∨ s.length = 1) ∧ n < 256 then
    some n
  else none

/-- IPv4 addresses. -/
def parse (s : List Char) : Option IpAddr :=
  match (s.splitOn '.').mapM octet with
  | some [a, b, c, d] => some (.v4 (UInt32.ofNat (((a * 256 + b) * 256 + c) * 256 + d)))
  | _ => none

/-- Networks `n.0.0.0/8`. -/
def contains (n : ℕ) : IpAddr → Bool
  | .v4 bits => bits.toNat / 2 ^ 24 = n
  | .v6 _ => false

/-- The address 10.0.0.1. -/
def proxy : IpAddr := .v4 0x0a000001

/-- The address 203.0.113.9. -/
def client : IpAddr := .v4 0xcb007109

theorem resolve_client :
    (ClientIpResolver.trustedProxies [10]).resolve contains parse proxy
      (some "6.6.6.6, 203.0.113.9,10.0.0.2") = client := by
  have hright : ∀ s ∈ ["10.0.0.2".toList], IsTrusted contains parse [10] s := by
    intro s hs
    rw [List.mem_singleton.mp hs]
    exact ⟨.v4 0x0a000002, by decide +kernel, by decide +kernel⟩
  have h := ((resolve_trustedProxies contains parse [10] proxy).2.1 (by decide +kernel)).2
    "6.6.6.6, 203.0.113.9,10.0.0.2" ["6.6.6.6".toList] " 203.0.113.9".toList ["10.0.0.2".toList]
    (by decide +kernel) hright
  exact h.2 client (by decide +kernel) (Or.inl (by decide +kernel))

end Proxied

end BeamSocket.Core
