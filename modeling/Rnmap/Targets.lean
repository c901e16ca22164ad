/-
**Target specifications.**

A target is a CIDR block, a range of the last octet of an IPv4 address, an address or a hostname.
Parsing makes of it the addresses to scan, each with the label the user knows it by.  Blocks are
parsed by the `ipnet` crate and names looked up by the system; both are parameters here.

Main definitions:

* `Rnmap.ResolvedHost`, `Rnmap.TargetSpec` — the addresses and their labels;
* `Rnmap.Resolver` — what parsing asks of other crates;
* `Rnmap.parseV4Range`, `Rnmap.expandOne`, `Rnmap.parseMany` — the parser.

Main results:

* `Rnmap.parseMany_eq_ok_iff` — the hosts of a list of targets are those of the targets, in order;
* `Rnmap.isSpelling_of_parseMany` — **without name lookup every label is a spelling of its
  address**.
-/

import Rnmap.Result
import Rnmap.AddrParse

set_option relaxedAutoImplicit false
set_option autoImplicit false

namespace Rnmap

open Text

/-! ### The parser -/

/-- An address to scan. -/
structure ResolvedHost where
  /-- User-facing label: hostname if given, else IP. -/
  label : Text
  ip : IpAddr
  deriving DecidableEq

/-- An address labelled with its own text. -/
def ResolvedHost.ofIp (ip : IpAddr) : ResolvedHost := ⟨ip.display, ip⟩

structure TargetSpec where
  /-- Original input strings. -/
  inputs : List Text
  /-- Resolved IP addresses, in order. -/
  addrs : List ResolvedHost

/-- What parsing asks of other crates; an error is its text. -/
structure Resolver where
  /-- The addresses `hosts()` yields for the network `IpNet::from_str` makes of a text. -/
  netHosts : Text → Except Text (List IpAddr)
  /-- The first address of the network `Ipv4Net::from_str` makes of a text. -/
  ipv4Network : Text → Option Ipv4Addr
  /-- `dns_lookup::lookup_host`. -/
  lookupHost : Text → Except Text (List IpAddr)

/-- `parse_v4_range`: `none` when the text does not have the form of a range. -/
def parseV4Range (s : Text) : Except Error (Option (List ResolvedHost)) :=
  if s.count '-' ≠ 1 then .ok none
  else
    match splitOnce '-' s with
    -- there is a dash, so that `unwrap` does not panic
    | none => .ok none
    | some (left, hiS) =>
        if left.count '.' ≠ 3 then .ok none
        else
          match Ipv4Addr.fromStr left with
          | none => .ok none
          | some lo =>
              match fromStr 255 (trim hiS) with
              | .error e =>
                  .error (.target s ("range high `".toList ++ hiS ++ "`: ".toList ++ e.display))
              | .ok hi =>
                  if hi < lo.d.toNat then
                    .error (.target s ("range high ".toList ++ decimal hi ++ " < low ".toList ++
                      decimal lo.d.toNat))
                  else
                    .ok (some ((List.range' lo.d.toNat (hi + 1 - lo.d.toNat)).map fun last =>
                      .ofIp (.v4 ⟨lo.a, lo.b, lo.c, UInt8.ofNat last⟩)))

/-- The hosts of a CIDR block. -/
def expandNet (env : Resolver) (s : Text) : Except Error (List ResolvedHost) :=
  match env.netHosts s with
  | .error e => .error (.target s ("bad CIDR: ".toList ++ e))
  | .ok [] => .ok ((env.ipv4Network s).toList.map fun net => .ofIp (.v4 net))
  | .ok hosts => .ok (hosts.map .ofIp)

/-- The host a name stands for: its first IPv4 address, or else its first address. -/
def expandName (env : Resolver) (s : Text) (resolveDns : Bool) :
    Except Error (List ResolvedHost) :=
  if !resolveDns then
    .error (.target s "looks like a hostname but DNS resolution is disabled (-n)".toList)
  else
    match env.lookupHost s with
    | .error e => .error (.dns s e)
    | .ok [] => .error (.dns s "no addresses".toList)
    | .ok (ip :: ips) => .ok [⟨s, ((ip :: ips).find? IpAddr.isIpv4).getD ip⟩]

/-- `expand_one`. -/
def expandOne (env : Resolver) (raw : Text) (resolveDns : Bool) :
    Except Error (List ResolvedHost) :=
  let s := trim raw
  if s.isEmpty then .ok []
  else if '/' ∈ s then expandNet env s
  else
    match parseV4Range s with
    | .error e => .error e
    | .ok (some hosts) => .ok hosts
    | .ok none =>
        match IpAddr.fromStr s with
        | some ip => .ok [⟨s, ip⟩]
        | none => expandName env s resolveDns

/-- `TargetSpec::parse_many`: the first error ends it. -/
def parseMany (env : Resolver) (inputs : List Text) (resolveDns : Bool) :
    Except Error TargetSpec := do
  let all ← inputs.mapM fun raw => expandOne env raw resolveDns
  if all.flatten.isEmpty then
    .error (.target ([' '].intercalate inputs) "no targets resolved".toList)
  else .ok ⟨inputs, all.flatten⟩

/-! ### Labels -/

/-- The label is a spelling of the address. -/
def ResolvedHost.IsSpelling (r : ResolvedHost) : Prop := IpAddr.fromStr r.label = some r.ip

theorem isSpelling_ofIp (ip : IpAddr) : (ResolvedHost.ofIp ip).IsSpelling :=
  IpAddr.fromStr_display ip

theorem isSpelling_of_parseV4Range {s : Text} {hosts : List ResolvedHost}
    (h : parseV4Range s = .ok (some hosts)) : ∀ r ∈ hosts, r.IsSpelling := by
  unfold parseV4Range at h
  split_ifs at h
  · cases h
  cases hsplit : splitOnce '-' s with
  | none =>
      rw [hsplit] at h
      cases h
  | some parts =>
      obtain ⟨left, hiS⟩ := parts
      simp only [hsplit] at h
      split_ifs at h
      · cases h
      cases hleft : Ipv4Addr.fromStr left with
      | none =>
          rw [hleft] at h
          cases h
      | some lo =>
          simp only [hleft] at h
          cases hhi : fromStr 255 (trim hiS) with
          | error e =>
              rw [hhi] at h
              cases h
          | ok hi =>
              simp only [hhi] at h
              split_ifs at h
              cases h
              intro r hr
              obtain ⟨last, -, rfl⟩ := List.mem_map.1 hr
              exact isSpelling_ofIp _

theorem isSpelling_of_expandNet {env : Resolver} {s : Text} {hosts : List ResolvedHost}
    (h : expandNet env s = .ok hosts) : ∀ r ∈ hosts, r.IsSpelling := by
  unfold expandNet at h
  split at h
  · cases h
  · cases h
    intro r hr
    obtain ⟨net, -, rfl⟩ := List.mem_map.1 hr
    exact isSpelling_ofIp _
  · cases h
    intro r hr
    obtain ⟨ip, -, rfl⟩ := List.mem_map.1 hr
    exact isSpelling_ofIp _

theorem isSpelling_of_expandOne {env : Resolver} {raw : Text} {hosts : List ResolvedHost}
    (h : expandOne env raw false = .ok hosts) : ∀ r ∈ hosts, r.IsSpelling := by
  unfold expandOne at h
  dsimp only at h
  split_ifs at h with hempty hnet
  · cases h
    exact fun r hr => nomatch hr
  · exact isSpelling_of_expandNet h
  · cases hrange : parseV4Range (trim raw) with
    | error e =>
        rw [hrange] at h
        cases h
    | ok range =>
        cases range with
        | some rs =>
            rw [hrange] at h
            cases h
            exact isSpelling_of_parseV4Range hrange
        | none =>
            simp only [hrange] at h
            cases hip : IpAddr.fromStr (trim raw) with
            | some ip =>
                rw [hip] at h
                cases h
                intro r hr
                obtain rfl := List.mem_singleton.1 hr
                exact hip
            | none =>
                rw [hip] at h
                cases h

/-! ### Lists of targets -/

/-- **The hosts of a list of targets** are those of the targets, in order, and there are some. -/
theorem parseMany_eq_ok_iff {env : Resolver} {inputs : List Text} {resolveDns : Bool}
    {spec : TargetSpec} :
    parseMany env inputs resolveDns = .ok spec ↔
      ∃ all, (inputs.mapM fun raw => expandOne env raw resolveDns) = .ok all ∧
        all.flatten ≠ [] ∧ spec = ⟨inputs, all.flatten⟩ := by
  unfold parseMany
  cases hall : inputs.mapM fun raw => expandOne env raw resolveDns with
  | error e => exact iff_of_false (fun h => nomatch h) fun ⟨all, h, _⟩ => nomatch h
  | ok all =>
      change (if all.flatten.isEmpty then _ else Except.ok _) = Except.ok spec ↔ _
      constructor
      · intro h
        split_ifs at h with hempty
        cases h
        exact ⟨all, rfl, fun hnil => hempty (by simp [hnil]), rfl⟩
      · rintro ⟨all', hok, hne, rfl⟩
        cases hok
        rw [if_neg (by simpa using hne)]

/-- Without targets there is nothing to scan. -/
theorem parseMany_nil (env : Resolver) (resolveDns : Bool) (spec : TargetSpec) :
    parseMany env [] resolveDns ≠ .ok spec := by
  rw [Ne, parseMany_eq_ok_iff]
  rintro ⟨all, hall, hne, -⟩
  cases hall
  exact hne rfl

/-- What a loop collects comes from its rounds. -/
theorem exists_of_mem_mapM {α β : Type} {f : α → Except Error β} {xs : List α} {ys : List β}
    (h : xs.mapM f = .ok ys) {y : β} (hy : y ∈ ys) : ∃ x ∈ xs, f x = .ok y := by
  induction xs generalizing ys with
  | nil =>
      cases h
      cases hy
  | cons x xs ih =>
      rw [List.mapM_cons] at h
      cases hx : f x with
      | error e =>
          rw [hx] at h
          cases h
      | ok z =>
          cases hxs : xs.mapM f with
          | error e =>
              rw [hx, hxs] at h
              cases h
          | ok zs =>
              rw [hx, hxs] at h
              cases h
              rcases List.mem_cons.1 hy with rfl | hmem
              · exact ⟨x, List.mem_cons_self, hx⟩
              · obtain ⟨x', hx', hfx'⟩ := ih hxs hmem
                exact ⟨x', List.mem_cons_of_mem _ hx', hfx'⟩

/-- **Without name lookup every label is a spelling of its address.** -/
theorem isSpelling_of_parseMany {env : Resolver} {inputs : List Text} {spec : TargetSpec}
    (h : parseMany env inputs false = .ok spec) : ∀ r ∈ spec.addrs, r.IsSpelling := by
  obtain ⟨all, hall, -, rfl⟩ := parseMany_eq_ok_iff.1 h
  intro r hr
  obtain ⟨hosts, hhosts, hr⟩ := List.mem_flatten.1 hr
  obtain ⟨raw, -, hraw⟩ := exists_of_mem_mapM hall hhosts
  exact isSpelling_of_expandOne hraw r hr

end Rnmap
