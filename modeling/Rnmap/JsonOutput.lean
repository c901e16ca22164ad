/-
**The JSON report.**

The renderer filters a copy of the report and serialises it.  serde makes a JSON value of the
report, field by field in the order of the structures, and serde_json prints that value; the
printing, and how chrono writes a time stamp, are parameters here.

Main definitions:

* `Rnmap.Json`, `Rnmap.Serde` — JSON values, and what the serialisers do;
* `Rnmap.jsonCopy`, `Rnmap.reportJson`, `Rnmap.renderJson` — the renderer;
* `Rnmap.readJson` — what a JSON value says of the hosts.

Main results:

* `Rnmap.readJson_reportJson` — **the JSON value says what the report says**.
-/

import Rnmap.ReportFacts
import Rnmap.AddrParse

set_option relaxedAutoImplicit false
set_option autoImplicit false

namespace Rnmap

open Text

/-! ### The renderer -/

/-- A JSON value; a duration is a floating-point number of seconds. -/
inductive Json
  | null
  | nat (n : ℕ)
  | seconds (d : Duration)
  | str (s : Text)
  | arr (xs : List Json)
  | obj (fields : List (Text × Json))

/-- What the serialisers do: how chrono writes a time stamp, and `serde_json::to_string_pretty`,
with the text of its error. -/
structure Serde where
  dateTime : DateTime → Text
  toStringPretty : Json → Except Text Text

/-- An optional value. -/
def Json.option {α : Type} (json : α → Json) : Option α → Json
  | some a => json a
  | none => .null

def serviceJson (svc : ServiceInfo) : Json :=
  .obj [("name".toList, .str svc.name), ("product".toList, .option .str svc.product),
    ("version".toList, .option .str svc.version), ("banner".toList, .option .str svc.banner)]

def portJson (p : PortResult) : Json :=
  .obj [("port".toList, .nat p.port.toNat), ("protocol".toList, .str p.protocol.display),
    ("state".toList, .str p.state.display), ("reason".toList, .str p.reason),
    ("service".toList, .option serviceJson p.service),
    ("rtt_ms".toList, .option (fun ms : UInt64 => .nat ms.toNat) p.rttMs)]

def hostJson (serde : Serde) (h : HostResult) : Json :=
  .obj [("address".toList, .str h.address.display), ("hostname".toList, .option .str h.hostname),
    ("state".toList, .str h.state.word), ("reason".toList, .str h.reason),
    ("ports".toList, .arr (h.ports.map portJson)),
    ("started_at".toList, .str (serde.dateTime h.startedAt)),
    ("ended_at".toList, .str (serde.dateTime h.endedAt)), ("elapsed".toList, .seconds h.elapsed)]

def reportJson (serde : Serde) (r : ScanReport) : Json :=
  .obj [("scanner".toList, .str r.scanner), ("version".toList, .str r.version),
    ("args".toList, .arr (r.args.map .str)),
    ("started_at".toList, .str (serde.dateTime r.startedAt)),
    ("ended_at".toList, .str (serde.dateTime r.endedAt)), ("elapsed".toList, .seconds r.elapsed),
    ("hosts".toList, .arr (r.hosts.map (hostJson serde)))]

/-- The copy of the report that is serialised. -/
def jsonCopy (r : ScanReport) (onlyOpen : Bool) : ScanReport :=
  if onlyOpen then
    { r with hosts := r.hosts.map fun h =>
        { h with ports := h.ports.filter fun p => p.state = .open } }
  else r

/-- `json::render`. -/
def renderJson (serde : Serde) (r : ScanReport) (onlyOpen : Bool) : Text :=
  match serde.toStringPretty (reportJson serde (jsonCopy r onlyOpen)) with
  | .ok s => s
  | .error e => "\x7b\"error\":\"".toList ++ e ++ "\"\x7d".toList

/-! ### Reading a JSON value -/

namespace Json

/-- The value of a field. -/
def field (name : Text) : Json → Option Json
  | .obj fields => fields.lookup name
  | _ => none

def asNat : Json → Option ℕ
  | .nat n => some n
  | _ => none

def asText : Json → Option Text
  | .str s => some s
  | _ => none

def asArr : Json → Option (List Json)
  | .arr xs => some xs
  | _ => none

/-- A value that may be absent. -/
def asOption {α : Type} (read : Json → Option α) : Json → Option (Option α)
  | .null => some none
  | j => (read j).map some

end Json

def readServiceJson (j : Json) : Option ServiceFacts := do
  let name ← (j.field "name".toList).bind Json.asText
  let product ← (j.field "product".toList).bind (Json.asOption Json.asText)
  let version ← (j.field "version".toList).bind (Json.asOption Json.asText)
  some ⟨name, product, version⟩

def readPortJson (j : Json) : Option PortFacts := do
  let port ← (j.field "port".toList).bind Json.asNat
  let protocol ← ((j.field "protocol".toList).bind Json.asText).bind readProtocol
  let state ← ((j.field "state".toList).bind Json.asText).bind readPortState
  let reason ← (j.field "reason".toList).bind Json.asText
  let service ← (j.field "service".toList).bind (Json.asOption readServiceJson)
  some ⟨protocol, UInt16.ofNat port, state, reason, service⟩

def readHostJson (j : Json) : Option HostFacts := do
  let address ← ((j.field "address".toList).bind Json.asText).bind IpAddr.fromStr
  let hostname ← (j.field "hostname".toList).bind (Json.asOption Json.asText)
  let state ← ((j.field "state".toList).bind Json.asText).bind readHostState
  let reason ← (j.field "reason".toList).bind Json.asText
  let ports ← ((j.field "ports".toList).bind Json.asArr).bind fun ports => ports.mapM readPortJson
  some ⟨state, reason, address, hostname, ports⟩

/-- What a JSON value says of the hosts. -/
def readJson (j : Json) : Option (List HostFacts) :=
  ((j.field "hosts".toList).bind Json.asArr).bind fun hosts => hosts.mapM readHostJson

/-! ### The JSON value says what the report says -/

theorem asOption_option {α β : Type} {json : α → Json} {read : Json → Option β} {k : α → β}
    (h : ∀ a, read (json a) = some (k a)) (hnull : ∀ a, json a ≠ .null) (value : Option α) :
    Json.asOption read (Json.option json value) = some (value.map k) := by
  cases value with
  | none => rfl
  | some a =>
      have ha := h a
      change Json.asOption read (json a) = some (some (k a))
      cases hj : json a with
      | null => exact absurd hj (hnull a)
      | _ =>
          rw [hj] at ha
          rw [Json.asOption, ha]
          · rfl
          · exact fun heq => by cases heq

theorem asOption_text (value : Option Text) :
    Json.asOption Json.asText (Json.option .str value) = some value := by
  cases value <;> rfl

theorem readServiceJson_serviceJson (svc : ServiceInfo) :
    readServiceJson (serviceJson svc) = some svc.facts := by
  have hname : (serviceJson svc).field "name".toList = some (.str svc.name) := rfl
  have hproduct : (serviceJson svc).field "product".toList =
      some (.option .str svc.product) := rfl
  have hversion : (serviceJson svc).field "version".toList =
      some (.option .str svc.version) := rfl
  rw [readServiceJson, hname, hproduct, hversion]
  simp only [Option.bind_eq_bind, Option.bind_some, asOption_text, Json.asText]
  rfl

theorem readPortJson_portJson (p : PortResult) : readPortJson (portJson p) = some p.facts := by
  have hport : (portJson p).field "port".toList = some (.nat p.port.toNat) := rfl
  have hprotocol : (portJson p).field "protocol".toList = some (.str p.protocol.display) := rfl
  have hstate : (portJson p).field "state".toList = some (.str p.state.display) := rfl
  have hreason : (portJson p).field "reason".toList = some (.str p.reason) := rfl
  have hservice : (portJson p).field "service".toList =
      some (.option serviceJson p.service) := rfl
  rw [readPortJson, hport, hprotocol, hstate, hreason, hservice]
  simp only [Option.bind_eq_bind, Option.bind_some, Json.asText, Json.asNat, readProtocol_display,
    readPortState_display, asOption_option readServiceJson_serviceJson fun _ => Json.noConfusion,
    UInt16.ofNat_toNat]
  rfl

theorem readHostJson_hostJson (serde : Serde) (h : HostResult) :
    readHostJson (hostJson serde h) = some (h.facts h.ports) := by
  have haddress : (hostJson serde h).field "address".toList = some (.str h.address.display) := rfl
  have hhostname : (hostJson serde h).field "hostname".toList =
      some (.option .str h.hostname) := rfl
  have hstate : (hostJson serde h).field "state".toList = some (.str h.state.word) := rfl
  have hreason : (hostJson serde h).field "reason".toList = some (.str h.reason) := rfl
  have hports : (hostJson serde h).field "ports".toList =
      some (.arr (h.ports.map portJson)) := rfl
  rw [readHostJson, haddress, hhostname, hstate, hreason, hports]
  simp only [Option.bind_eq_bind, Option.bind_some, Json.asText, Json.asArr, asOption_text,
    IpAddr.fromStr_display, readHostState_word, mapM_map fun p _ => readPortJson_portJson p]
  rfl

/-- **The JSON value says what the report says.** -/
theorem readJson_reportJson (serde : Serde) (r : ScanReport) :
    readJson (reportJson serde r) = some (r.hosts.map fun h => h.facts h.ports) := by
  have hhosts : (reportJson serde r).field "hosts".toList =
      some (.arr (r.hosts.map (hostJson serde))) := rfl
  rw [readJson, hhosts]
  exact mapM_map fun h _ => readHostJson_hostJson serde h

end Rnmap
