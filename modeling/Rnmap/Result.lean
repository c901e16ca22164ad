/-
**The data model of a scan.**

Results, errors and timing templates, as the core crate defines them.  Durations and clock
readings are numbers of nanoseconds.  Only the errors some modelled function builds are kept, and
of an `std::io::Error` what the scanner looks at: its kind, its OS error number and its text.

Main definitions:

* `Rnmap.PortResult`, `Rnmap.HostResult`, `Rnmap.ScanReport` — what a scan reports, from one port
  to the whole run;
* `Rnmap.Error`, `Rnmap.IoError` — what can go wrong;
* `Rnmap.Timing` — the timing templates.

Main results:

* `Rnmap.Timing.maxParallel_pos` — every template allows some probe;
* `Rnmap.Timing.maxParallel_mono`, `Rnmap.Timing.connectTimeout_anti` — a higher template is more
  parallel and less patient.
-/

import Rnmap.Addr

set_option relaxedAutoImplicit false
set_option autoImplicit false

namespace Rnmap

/-! ### Results -/

/-- The transport protocol of a port. -/
inductive Protocol
  | tcp
  | udp
  deriving DecidableEq, Repr

def Protocol.display : Protocol → Text
  | .tcp => "tcp".toList
  | .udp => "udp".toList

/-- What a probe found out about a port. -/
inductive PortState
  | open
  | closed
  | filtered
  | unfiltered
  deriving DecidableEq, Repr

def PortState.display : PortState → Text
  | .open => "open".toList
  | .closed => "closed".toList
  | .filtered => "filtered".toList
  | .unfiltered => "unfiltered".toList

/-- What discovery found out about a host. -/
inductive HostState
  | up
  | down
  | unknown
  deriving DecidableEq, Repr

/-- The word both text renderers print for a host state. -/
def HostState.word : HostState → Text
  | .up => "up".toList
  | .down => "down".toList
  | .unknown => "unknown".toList

/-- What service detection found out about an open port. -/
structure ServiceInfo where
  name : Text
  product : Option Text
  version : Option Text
  banner : Option Text
  deriving DecidableEq, Repr

/-- The result of probing one port. -/
structure PortResult where
  port : UInt16
  protocol : Protocol
  state : PortState
  reason : Text
  service : Option ServiceInfo
  /-- Round-trip time of the probe that determined state, in milliseconds. -/
  rttMs : Option UInt64
  deriving DecidableEq, Repr

/-- What a probe reports of a port: a TCP port whose service is not yet known. -/
structure PortResult.IsProbeOf (r : PortResult) (port : UInt16) : Prop where
  port_eq : r.port = port
  protocol : r.protocol = .tcp
  service : r.service = none

/-- A duration or a clock reading, in nanoseconds. -/
abbrev Duration := ℕ

/-- `Duration::from_millis`. -/
def fromMillis (ms : ℕ) : Duration := ms * 1000000

/-- `Duration::from_secs`. -/
def fromSecs (s : ℕ) : Duration := s * 1000000000

/-- `as_millis() as u64`: whole milliseconds, truncated to 64 bits. -/
def asMillis (d : Duration) : UInt64 := UInt64.ofNat (d / 1000000)

/-- A UTC time stamp: the seconds since the epoch and the nanoseconds within the second. -/
structure DateTime where
  timestamp : ℤ
  nanos : ℕ
  deriving DecidableEq, Repr

/-- The result of scanning one host. -/
structure HostResult where
  address : IpAddr
  hostname : Option Text
  state : HostState
  reason : Text
  ports : List PortResult
  startedAt : DateTime
  endedAt : DateTime
  elapsed : Duration

/-- The report of a whole run. -/
structure ScanReport where
  scanner : Text
  version : Text
  args : List Text
  startedAt : DateTime
  endedAt : DateTime
  elapsed : Duration
  hosts : List HostResult

namespace ScanReport

def hostCount (r : ScanReport) : ℕ := r.hosts.length

def upCount (r : ScanReport) : ℕ := (r.hosts.filter fun h => h.state = .up).length

def openPortCount (r : ScanReport) : ℕ :=
  ((r.hosts.flatMap fun h => h.ports).filter fun p => p.state = .open).length

end ScanReport

/-! ### Errors -/

/-- The `std::io::ErrorKind`s the scanner tells apart. -/
inductive ErrorKind
  | connectionRefused
  | connectionReset
  | wouldBlock
  | timedOut
  | other
  deriving DecidableEq, Repr

/-- An `std::io::Error`: its kind, its raw OS error number and its text. -/
structure IoError where
  kind : ErrorKind
  rawOsError : Option ℤ
  display : Text
  deriving DecidableEq, Repr

/-- The errors of the core crate. -/
inductive Error
  | target (spec reason : Text)
  | ports (spec reason : Text)
  | dns (name reason : Text)
  | privilege (reason : Text)
  | io (e : IoError)
  | other (reason : Text)
  deriving DecidableEq, Repr

/-- The error a raw socket that cannot be opened is reported as: `EPERM` is a lack of privilege,
and `what` names the socket. -/
def socketError (what : Text) (e : IoError) : Error :=
  if e.rawOsError = some 1 then .privilege (what ++ ": ".toList ++ e.display) else .io e

/-! ### Timing templates -/

/-- A timing template. -/
structure Timing where
  level : UInt8
  /-- Total number of concurrent in-flight scan tasks. -/
  maxParallel : ℕ
  /-- TCP connect / SYN response timeout. -/
  connectTimeout : Duration
  /-- Banner read timeout for service detection. -/
  readTimeout : Duration
  /-- Maximum retries for a probe. -/
  maxRetries : UInt32
  /-- Per-target host timeout (overall, 0 = none). -/
  hostTimeout : Duration
  deriving DecidableEq, Repr

namespace Timing

/-- `Timing::new`: the template of a level; every level from five on is level five. -/
def new (level : UInt8) : Timing :=
  if level = 0 then ⟨0, 1, fromSecs 15, fromSecs 10, 5, 0⟩
  else if level = 1 then ⟨1, 5, fromSecs 10, fromSecs 8, 3, 0⟩
  else if level = 2 then ⟨2, 30, fromSecs 5, fromSecs 5, 2, 0⟩
  else if level = 3 then ⟨3, 100, fromSecs 3, fromSecs 3, 2, 0⟩
  else if level = 4 then ⟨4, 300, fromMillis 1500, fromSecs 2, 1, 0⟩
  else ⟨5, 1000, fromMillis 800, fromSecs 1, 1, fromSecs 900⟩

/-- Every template allows some probe. -/
theorem maxParallel_pos (level : UInt8) : 0 < (new level).maxParallel := by
  unfold new
  split_ifs <;> decide

/-- A higher template is at least as parallel. -/
theorem maxParallel_mono {l m : UInt8} (h : l ≤ m) :
    (new l).maxParallel ≤ (new m).maxParallel := by
  have hle := UInt8.le_iff_toNat_le.1 h
  simp only [new, ← UInt8.toNat_inj, UInt8.reduceToNat]
  split_ifs <;> first | decide | omega

/-- A higher template is at most as patient. -/
theorem connectTimeout_anti {l m : UInt8} (h : l ≤ m) :
    (new m).connectTimeout ≤ (new l).connectTimeout := by
  have hle := UInt8.le_iff_toNat_le.1 h
  simp only [new, ← UInt8.toNat_inj, UInt8.reduceToNat]
  split_ifs <;> first | decide | omega

end Timing

end Rnmap
