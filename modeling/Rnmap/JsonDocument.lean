/-
**The JSON report as a document.**

The JSON report is a text that has all of the report in it, and a reader of JSON texts gets it back.
The reader is one of this development: a structure is read from an object with one field of each
name, in any order, with others ignored and optional ones left out or null; an enumeration from its
word in lower case; and a duration as the helper of the data model makes it of a number of seconds.
The two passes over such a number, to a floating-point number and back, may each be inexact; what
counts is that a duration is less than half a nanosecond away from the number read for it.

Main definitions:

* `Rnmap.JsonFormats` — how numbers of seconds and time stamps are written and read;
* `Rnmap.Json.toValue`, `Rnmap.JsonFormats.serde` — a serialised value as a JSON value, and a
  serialiser that prints its pretty form;
* `Rnmap.getPort`, `Rnmap.JsonFormats.getReportDoc` — what the reader makes of a value;
* `Rnmap.JsonFormats.readBack` — the reader of a text;
* `Rnmap.JsonFormats.Exact` — a report whose numbers and time stamps survive.

Main results:

* `Rnmap.JsonFormats.deDurationSecs_secs` — a duration is read back from its number of seconds;
* `Rnmap.JsonFormats.getReportDoc_reportJson` — the JSON value has all of the report;
* `Rnmap.JsonFormats.json_round_trip` — **a JSON report is read back as what was shown**.
-/

import Rnmap.JsonText
import Rnmap.JsonOutput
import Rnmap.ReadBack
import Rnmap.Report

set_option relaxedAutoImplicit false
set_option autoImplicit false

namespace Rnmap

open Text JsonText Rounding

/-! ### Numbers -/

/-- A natural number is written without leading zeros. -/
theorem isNumeral_decimal (n : ℕ) : isNumeral (decimal n) = true := by
  have hdigits : ∀ c ∈ decimal n, c.isDigit = true := fun c => isDigit_of_mem_decimal
  have hall : (decimal n).takeWhile Char.isDigit = decimal n :=
    List.takeWhile_eq_self_iff.2 hdigits
  have hnone : (decimal n).dropWhile Char.isDigit = [] :=
    List.dropWhile_eq_nil_iff.2 hdigits
  cases h : decimal n with
  | nil => exact absurd h Nat.toDigits_ne_nil
  | cons c ds =>
      rw [h] at hall hnone hdigits
      have hc := hdigits c List.mem_cons_self
      have hminus : c ≠ '-' := by
        rintro rfl
        cases hc
      have hunsigned : isNumeral (c :: ds) = isUnsigned (c :: ds) := by
        rw [isNumeral.eq_def]
        split
        · rename_i heq
          exact absurd (List.cons.inj heq).1 hminus
        · rfl
      rw [hunsigned]
      by_cases hzero : c = '0'
      · -- only the number zero starts with a zero
        have hn : n = 0 := by
          have hhead : (Nat.toDigits 10 n).head? = some '0' := by
            change (decimal n).head? = some '0'
            rw [h, hzero]
            rfl
          exact eq_zero_of_head_toDigits (by decide) (by decide) hhead
        rw [hn] at h
        obtain ⟨rfl, rfl⟩ := List.cons.inj h
        rfl
      · rw [isUnsigned.eq_def]
        split
        · rename_i heq
          exact absurd (List.cons.inj heq).1 hzero
        · rw [digitsThen, hall, hnone]
          rfl

/-- A natural number in JSON. -/
def natNumeral (n : ℕ) : Numeral := ⟨decimal n, isNumeral_decimal n⟩

/-! ### What is written -/

/-- How numbers of seconds and time stamps are written, and how they are read. -/
structure JsonFormats where
  /-- The floating-point number of seconds of a duration, as it is printed. -/
  secs : Duration → Numeral
  /-- The floating-point number that is read for a number. -/
  f64 : Numeral → Except DeError ℚ
  dateTime : DateTime → Text
  readDateTime : Text → Option DateTime

mutual

/-- A serialised value, its durations as numbers. -/
def Json.toValue (secs : Duration → Numeral) : Json → Value
  | .null => .null
  | .nat n => .num (natNumeral n)
  | .seconds d => .num (secs d)
  | .str s => .str s
  | .arr xs => .arr (toValues secs xs)
  | .obj fields => .obj (toFields secs fields)

/-- The elements of an array. -/
def toValues (secs : Duration → Numeral) : List Json → List Value
  | [] => []
  | x :: xs => x.toValue secs :: toValues secs xs

/-- The fields of an object. -/
def toFields (secs : Duration → Numeral) : List (Text × Json) → List (Text × Value)
  | [] => []
  | (name, x) :: fields => (name, x.toValue secs) :: toFields secs fields

end

theorem toValues_map {α : Type} (secs : Duration → Numeral) (json : α → Json) (xs : List α) :
    toValues secs (xs.map json) = xs.map fun x => (json x).toValue secs := by
  induction xs with
  | nil => rfl
  | cons x xs ih => rw [List.map_cons, List.map_cons, toValues, ih]

/-- The serialiser with these formats that prints the pretty form of a value. -/
def JsonFormats.serde (fmt : JsonFormats) : Serde where
  dateTime := fmt.dateTime
  toStringPretty := fun j => .ok (pretty 0 (j.toValue fmt.secs))

/-! ### What the reader makes of a value -/

/-- The values of a field. -/
def fieldsOf (name : Text) : Value → List Value
  | .obj fields => (fields.filter fun f => f.1 = name).map Prod.snd
  | _ => []

/-- A field that has to be there, once. -/
def required {α : Type} (name : String) (read : Value → Option α) (v : Value) : Option α :=
  match fieldsOf name.toList v with
  | [x] => read x
  | _ => none

/-- A field that may be left out or null. -/
def optional {α : Type} (name : String) (read : Value → Option α) (v : Value) :
    Option (Option α) :=
  match fieldsOf name.toList v with
  | [] => some none
  | [.null] => some none
  | [x] => (read x).map some
  | _ => none

def getText : Value → Option Text
  | .str s => some s
  | _ => none

/-- A number of an unsigned type with largest value `max`. -/
def getNat (max : ℕ) : Value → Option ℕ
  | .num n =>
      if n.text.all Char.isDigit ∧ Nat.ofDigitChars 10 n.text 0 ≤ max then
        some (Nat.ofDigitChars 10 n.text 0)
      else none
  | _ => none

def getList {α : Type} (read : Value → Option α) : Value → Option (List α)
  | .arr xs => xs.mapM read
  | _ => none

/-- A service. -/
def getService (v : Value) : Option ServiceInfo := do
  let name ← required "name" getText v
  let product ← optional "product" getText v
  let version ← optional "version" getText v
  let banner ← optional "banner" getText v
  some ⟨name, product, version, banner⟩

/-- A port. -/
def getPort (v : Value) : Option PortResult := do
  let port ← required "port" (getNat 65535) v
  let protocol ← required "protocol" (fun x => (getText x).bind readProtocol) v
  let state ← required "state" (fun x => (getText x).bind readPortState) v
  let reason ← required "reason" getText v
  let service ← optional "service" getService v
  let rttMs ← optional "rtt_ms" (getNat 18446744073709551615) v
  some ⟨UInt16.ofNat port, protocol, state, reason, service, rttMs.map UInt64.ofNat⟩

namespace JsonFormats

variable (fmt : JsonFormats)

/-- What is there for a number of seconds. -/
def getSecs : Value → Option (Except DeError ℚ)
  | .num n => some (fmt.f64 n)
  | _ => none

/-- A time stamp. -/
def getTime (v : Value) : Option DateTime := (getText v).bind fmt.readDateTime

/-- A host, its number of seconds as it is there. -/
def getHostDoc (v : Value) : Option HostDoc := do
  let address ← required "address" (fun x => (getText x).bind IpAddr.fromStr) v
  let hostname ← optional "hostname" getText v
  let state ← required "state" (fun x => (getText x).bind readHostState) v
  let reason ← required "reason" getText v
  let ports ← required "ports" (getList getPort) v
  let startedAt ← required "started_at" fmt.getTime v
  let endedAt ← required "ended_at" fmt.getTime v
  let elapsed ← required "elapsed" fmt.getSecs v
  some ⟨address, hostname, state, reason, ports, startedAt, endedAt, elapsed⟩

/-- A report, its numbers of seconds as they are there. -/
def getReportDoc (v : Value) : Option ReportDoc := do
  let scanner ← required "scanner" getText v
  let version ← required "version" getText v
  let args ← required "args" (getList getText) v
  let startedAt ← required "started_at" fmt.getTime v
  let endedAt ← required "ended_at" fmt.getTime v
  let elapsed ← required "elapsed" fmt.getSecs v
  let hosts ← required "hosts" (getList fmt.getHostDoc) v
  some ⟨scanner, version, args, startedAt, endedAt, elapsed, hosts⟩

/-- **The reader of a text**: `none` when the text has no report in it. -/
def readBack (s : Text) : Option (De ScanReport) :=
  ((JsonText.read s).bind fmt.getReportDoc).map deReport

end JsonFormats

/-! ### A value is read back from what was serialised -/

section Fields

variable {α β : Type} {name : String} {v x : Value}

theorem required_of_fieldsOf (read : Value → Option α) (h : fieldsOf name.toList v = [x]) :
    required name read v = read x := by
  rw [required, h]

/-- An optional field is read back, when its values are and none of them is null. -/
theorem optional_of_fieldsOf (secs : Duration → Numeral) (json : α → Json) (read : Value → Option β)
    (k : α → β) (hread : ∀ a, read ((json a).toValue secs) = some (k a))
    (hnull : ∀ a, (json a).toValue secs ≠ .null) {value : Option α}
    (h : fieldsOf name.toList v = [(Json.option json value).toValue secs]) :
    optional name read v = some (value.map k) := by
  rw [optional, h]
  cases value with
  | none => rfl
  | some a =>
      have ha := hread a
      have hne := hnull a
      simp only [Json.option, Option.map_some]
      generalize (json a).toValue secs = y at ha hne
      cases y with
      | null => exact absurd rfl hne
      | _ => simp [ha]

/-- An optional text is read back. -/
theorem optional_text (secs : Duration → Numeral) {value : Option Text}
    (h : fieldsOf name.toList v = [(Json.option .str value).toValue secs]) :
    optional name getText v = some value := by
  have htext := optional_of_fieldsOf secs .str getText id (fun _ => rfl)
    (fun _ => Value.noConfusion) h
  rw [htext, Option.map_id]
  rfl

end Fields

theorem getNat_natNumeral {max n : ℕ} (h : n ≤ max) :
    getNat max (.num (natNumeral n)) = some n := by
  have hdigits : (natNumeral n).text.all Char.isDigit = true :=
    List.all_eq_true.2 fun c => isDigit_of_mem_decimal
  have hvalue : Nat.ofDigitChars 10 (natNumeral n).text 0 = n := Nat.ofDigitChars_ten_toDigits
  rw [getNat, if_pos ⟨hdigits, hvalue.le.trans h⟩, hvalue]

theorem getList_toValues {α β : Type} (secs : Duration → Numeral) (json : α → Json)
    (read : Value → Option β) (k : α → β) {xs : List α}
    (h : ∀ x ∈ xs, read ((json x).toValue secs) = some (k x)) :
    getList read (.arr (toValues secs (xs.map json))) = some (xs.map k) := by
  rw [toValues_map, getList]
  exact mapM_map h

theorem getService_serviceJson (secs : Duration → Numeral) (svc : ServiceInfo) :
    getService ((serviceJson svc).toValue secs) = some svc := by
  have hname : fieldsOf "name".toList ((serviceJson svc).toValue secs) = [.str svc.name] := rfl
  have hproduct : optional "product" getText ((serviceJson svc).toValue secs) = some svc.product :=
    optional_text secs rfl
  have hversion : optional "version" getText ((serviceJson svc).toValue secs) = some svc.version :=
    optional_text secs rfl
  have hbanner : optional "banner" getText ((serviceJson svc).toValue secs) = some svc.banner :=
    optional_text secs rfl
  rw [getService, required_of_fieldsOf _ hname, hproduct, hversion, hbanner]
  rfl

theorem getPort_portJson (secs : Duration → Numeral) (p : PortResult) :
    getPort ((portJson p).toValue secs) = some p := by
  have hport : required "port" (getNat 65535) ((portJson p).toValue secs) = some p.port.toNat :=
    getNat_natNumeral (Nat.le_of_lt_succ p.port.toNat_lt)
  have hprotocol : required "protocol" (fun x => (getText x).bind readProtocol)
      ((portJson p).toValue secs) = some p.protocol := readProtocol_display p.protocol
  have hstate : required "state" (fun x => (getText x).bind readPortState)
      ((portJson p).toValue secs) = some p.state := readPortState_display p.state
  have hreason : required "reason" getText ((portJson p).toValue secs) = some p.reason := rfl
  have hservice : optional "service" getService ((portJson p).toValue secs) = some p.service := by
    have hwritten : fieldsOf "service".toList ((portJson p).toValue secs) =
        [(Json.option serviceJson p.service).toValue secs] := rfl
    rw [optional_of_fieldsOf secs serviceJson getService id (getService_serviceJson secs)
      (fun _ => Value.noConfusion) hwritten, Option.map_id]
    rfl
  have hrtt : optional "rtt_ms" (getNat 18446744073709551615) ((portJson p).toValue secs) =
      some (p.rttMs.map UInt64.toNat) :=
    optional_of_fieldsOf secs (fun ms : UInt64 => .nat ms.toNat) _ UInt64.toNat
      (fun ms => getNat_natNumeral (Nat.le_of_lt_succ ms.toNat_lt)) (fun _ => Value.noConfusion) rfl
  rw [getPort, hport, hprotocol, hstate, hreason, hservice, hrtt]
  simp [Function.comp_def]

/-! ### A report is read back from its text -/

/-- The time stamps of a report. -/
def ScanReport.timeStamps (r : ScanReport) : List DateTime :=
  r.startedAt :: r.endedAt :: r.hosts.flatMap fun h => [h.startedAt, h.endedAt]

namespace JsonFormats

variable {fmt : JsonFormats}

variable (fmt) in
/-- What is read for a duration that was written. -/
def number (d : Duration) : Except DeError ℚ := fmt.f64 (fmt.secs d)

variable (fmt) in
/-- A duration survives: the number read for it is less than half a nanosecond away. -/
def Accurate (d : Duration) : Prop :=
  d < durationLimit ∧ ∃ q, fmt.number d = .ok q ∧ |q - asSecsF64 d| < 1 / (2 * 10 ^ 9)

variable (fmt) in
/-- **A report whose numbers and time stamps survive.** -/
structure Exact (r : ScanReport) : Prop where
  times : ∀ t ∈ r.timeStamps, fmt.readDateTime (fmt.dateTime t) = some t
  durations : ∀ d ∈ r.durations, fmt.Accurate d

/-- **A duration is read back from its number of seconds.** -/
theorem deDurationSecs_secs {d : Duration} (h : fmt.Accurate d) :
    deDurationSecs (fmt.number d) = pure d := by
  obtain ⟨hlimit, q, hq, hnear⟩ := h
  rw [hq]
  exact deDurationSecs_of_near hlimit hnear

theorem getHostDoc_hostJson {h : HostResult}
    (hstarted : fmt.readDateTime (fmt.dateTime h.startedAt) = some h.startedAt)
    (hended : fmt.readDateTime (fmt.dateTime h.endedAt) = some h.endedAt) :
    fmt.getHostDoc ((hostJson fmt.serde h).toValue fmt.secs) = some (hostDoc fmt.number h) := by
  generalize hv : (hostJson fmt.serde h).toValue fmt.secs = v
  have haddress : required "address" (fun x => (getText x).bind IpAddr.fromStr) v =
      some h.address := hv ▸ IpAddr.fromStr_display h.address
  have hhostname : optional "hostname" getText v = some h.hostname :=
    optional_text fmt.secs (hv ▸ rfl)
  have hstate : required "state" (fun x => (getText x).bind readHostState) v = some h.state :=
    hv ▸ readHostState_word h.state
  have hreason : required "reason" getText v = some h.reason := hv ▸ rfl
  have hports : required "ports" (getList getPort) v = some h.ports := by
    have hlist : getList getPort (.arr (toValues fmt.secs (h.ports.map portJson))) =
        some (h.ports.map id) :=
      getList_toValues fmt.secs portJson getPort id fun p _ => getPort_portJson fmt.secs p
    rw [List.map_id] at hlist
    exact hv ▸ hlist
  have hstart : required "started_at" fmt.getTime v = some h.startedAt := hv ▸ hstarted
  have hend : required "ended_at" fmt.getTime v = some h.endedAt := hv ▸ hended
  have helapsed : required "elapsed" fmt.getSecs v = some (fmt.number h.elapsed) := hv ▸ rfl
  rw [getHostDoc, haddress, hhostname, hstate, hreason, hports, hstart, hend, helapsed]
  rfl

/-- **The JSON value has all of the report.** -/
theorem getReportDoc_reportJson {r : ScanReport} (h : fmt.Exact r) :
    fmt.getReportDoc ((reportJson fmt.serde r).toValue fmt.secs) =
      some (reportDoc fmt.number r) := by
  have htimes := h.times
  simp only [ScanReport.timeStamps, List.forall_mem_cons, List.forall_mem_flatMap] at htimes
  obtain ⟨hstarted, hended, hhosts⟩ := htimes
  generalize hv : (reportJson fmt.serde r).toValue fmt.secs = v
  have hscanner : required "scanner" getText v = some r.scanner := hv ▸ rfl
  have hversion : required "version" getText v = some r.version := hv ▸ rfl
  have hargs : required "args" (getList getText) v = some r.args := by
    have hlist : getList getText (.arr (toValues fmt.secs (r.args.map .str))) =
        some (r.args.map id) := getList_toValues fmt.secs .str getText id fun _ _ => rfl
    rw [List.map_id] at hlist
    exact hv ▸ hlist
  have hstart : required "started_at" fmt.getTime v = some r.startedAt := hv ▸ hstarted
  have hend : required "ended_at" fmt.getTime v = some r.endedAt := hv ▸ hended
  have helapsed : required "elapsed" fmt.getSecs v = some (fmt.number r.elapsed) := hv ▸ rfl
  have hlist : required "hosts" (getList fmt.getHostDoc) v =
      some (r.hosts.map (hostDoc fmt.number)) :=
    hv ▸ getList_toValues fmt.secs (hostJson fmt.serde) fmt.getHostDoc (hostDoc fmt.number)
      fun host hhost => getHostDoc_hostJson (hhosts host hhost).1 (hhosts host hhost).2.1
  rw [getReportDoc, hscanner, hversion, hargs, hstart, hend, helapsed, hlist]
  rfl

/-- Leaving out ports changes no number and no time stamp. -/
theorem Exact.jsonCopy {r : ScanReport} (h : fmt.Exact r) (onlyOpen : Bool) :
    fmt.Exact (Rnmap.jsonCopy r onlyOpen) := by
  cases onlyOpen with
  | false => exact h
  | true =>
      refine ⟨?_, ?_⟩
      · have htimes : (Rnmap.jsonCopy r true).timeStamps = r.timeStamps := by
          simp [Rnmap.jsonCopy, ScanReport.timeStamps, List.flatMap_map]
        rw [htimes]
        exact h.times
      · have hdurations : (Rnmap.jsonCopy r true).durations = r.durations := by
          simp [Rnmap.jsonCopy, ScanReport.durations]
        rw [hdurations]
        exact h.durations

/-- A report that is serialised whole is read back. -/
theorem readBack_toStringPretty {r : ScanReport} (h : fmt.Exact r) {text : Text}
    (htext : fmt.serde.toStringPretty (reportJson fmt.serde r) = .ok text) :
    fmt.readBack text = some (pure r) := by
  obtain rfl : pretty 0 ((reportJson fmt.serde r).toValue fmt.secs) = text := Except.ok.inj htext
  rw [readBack, read_pretty, Option.bind_some, getReportDoc_reportJson h, Option.map_some,
    deReport_written fun d hd => deDurationSecs_secs (h.durations d hd)]

/-- **A JSON report is read back as what was shown**: with a serialiser that prints the pretty form
of a value, what the renderer makes has the whole report, with the ports that were to be shown. -/
theorem json_round_trip (fmt : JsonFormats) {serde : Serde} (hserde : serde = fmt.serde)
    (r : ScanReport) (onlyOpen : Bool) (h : fmt.Exact r) :
    fmt.readBack (renderJson serde r onlyOpen) = some (pure (Rnmap.jsonCopy r onlyOpen)) := by
  rw [hserde]
  exact readBack_toStringPretty (h.jsonCopy onlyOpen) rfl

/-- Formats that know one second and the first two seconds of the epoch. -/
def ofOneSecond : JsonFormats where
  secs := fun d => if d = fromSecs 1 then ⟨"1.0".toList, rfl⟩ else ⟨"0.0".toList, rfl⟩
  f64 := fun n => if n.text = "1.0".toList then .ok 1 else .ok 0
  dateTime := fun t =>
    if t = ⟨0, 0⟩ then "1970-01-01T00:00:00Z".toList else "1970-01-01T00:00:01Z".toList
  readDateTime := fun s =>
    if s = "1970-01-01T00:00:00Z".toList then some ⟨0, 0⟩ else some ⟨1, 0⟩

/-- A report with an SSH banner, its line end included, is read back. -/
theorem json_round_trip_ssh :
    let r := sampleReport 22 "SSH-2.0-OpenSSH_9.9p1 \"Debian\"\r\n".toList
    ofOneSecond.Exact r ∧
      ofOneSecond.readBack (renderJson ofOneSecond.serde r false) = some (pure r) := by
  intro r
  have hexact : ofOneSecond.Exact r := by
    refine ⟨?_, ?_⟩
    · change ∀ t ∈ [(⟨0, 0⟩ : DateTime), ⟨1, 0⟩, ⟨0, 0⟩, ⟨1, 0⟩], _
      decide
    · intro d hd
      obtain rfl : d = fromSecs 1 := by
        rcases List.mem_cons.1 hd with rfl | hd
        · rfl
        · exact List.mem_singleton.1 hd
      refine ⟨by decide, 1, rfl, ?_⟩
      norm_num [asSecsF64, fromSecs]
  exact ⟨hexact, json_round_trip ofOneSecond rfl r false hexact⟩

end JsonFormats

end Rnmap
