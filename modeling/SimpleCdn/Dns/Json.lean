import SimpleCdn.Lib.Dict
import Mathlib.Data.List.Infix
import Mathlib.Data.Rat.Defs

namespace SimpleCdn

inductive PyError
  | keyError
  | typeError
  | valueError
  | zeroDivisionError
  | runtimeError
  | jsonDecodeError
  | connectionError
  | addressNotFoundError
  deriving DecidableEq

/-- The values that `json.loads` builds. Numbers are exact. An object lists its
members by name; a name that is met twice is read at its first place. -/
inductive Json
  | null
  | bool (value : Bool)
  | number (value : ℚ)
  | string (value : String)
  | array (items : List Json)
  | object (members : List (String × Json))

/-- A hashable value. `True` and `1` are the same dictionary key, so both are
the number one here. -/
inductive Key
  | none
  | number (value : ℚ)
  | string (value : String)
  deriving DecidableEq

namespace Json

/-- `value[name]` for a string `name`. -/
def item (name : String) : Json → Except PyError Json
  | object members =>
    match findEntry name members with
    | some value => .ok value
    | none => .error .keyError
  | _ => .error .typeError

def isString (text : String) : Json → Bool
  | string value => value == text
  | _ => false

/-- `name in value`: a key of an object, an element of a list, a part of a string. -/
def contains (name : String) : Json → Except PyError Bool
  | object members => .ok (findEntry name members).isSome
  | array items => .ok (items.any (isString name))
  | string value => .ok (decide (name.toList <:+: value.toList))
  | _ => .error .typeError

/-- The key that a value is hashed to. Lists and objects are not hashable. -/
def key : Json → Except PyError Key
  | null => .ok .none
  | bool value => .ok (.number (if value then 1 else 0))
  | number value => .ok (.number value)
  | string value => .ok (.string value)
  | array _ => .error .typeError
  | object _ => .error .typeError

/-- The value as an operand of `+`, `min` and `max` beside a number. -/
def numeric : Json → Except PyError ℚ
  | bool value => .ok (if value then 1 else 0)
  | number value => .ok value
  | _ => .error .typeError

@[simp] theorem key_string (text : String) : (string text).key = .ok (.string text) := rfl

@[simp] theorem numeric_number (value : ℚ) : (number value).numeric = .ok value := rfl

end Json

/-- One recorded latency: what `update_latency` reads from a ping record. -/
structure Measurement where
  client : Key
  replica : Key
  latency : ℚ
  deriving DecidableEq

/-- The fields that `update_latency` reads: the client, the replica and the
latency of a ping that was not blocked. The type is looked at before the
statistics, and the statistics before the addresses. -/
def Json.pingFields (output : Json) : Except PyError (Option (Json × Json × Json)) := do
  let type ← output.item "type"
  if type.isString "ping" then
    let statistics ← output.item "statistics"
    if ← statistics.contains "avg" then
      let client ← output.item "dst"
      let replica ← output.item "src"
      let latency ← statistics.item "avg"
      return some (client, replica, latency)
    else return none
  else return none

/-- What a record holds for `update_latency`: nothing to record, a measurement,
or the exception that ends the call. -/
def Json.measurement (output : Json) : Except PyError (Option Measurement) := do
  match ← output.pingFields with
  | none => return none
  | some (client, replica, latency) => return some ⟨← client.key, ← replica.key, ← latency.numeric⟩

/-- A line of scamper's output: a ping record with string addresses and, unless
the ping was blocked, a mean round-trip time; or a record of another type, of
which nothing but the type is known. -/
inductive IsScamper (output : Json) : Prop
  | other (type : String) : output.item "type" = .ok (.string type) → type ≠ "ping" → IsScamper output
  | ping (src dst : String) (statistics : List (String × Json)) :
      output.item "type" = .ok (.string "ping") → output.item "src" = .ok (.string src) →
      output.item "dst" = .ok (.string dst) → output.item "statistics" = .ok (.object statistics) →
      (∀ avg, findEntry "avg" statistics = some avg → ∃ latency, avg = .number latency ∧ 0 ≤ latency) →
      IsScamper output

/-- Scamper's records are well formed by construction. -/
structure ScamperRecord where
  output : Json
  scamper : IsScamper output

/-- The least that scamper prints for a ping that was answered. -/
def pingOutput (src dst : String) (latency : ℚ) : Json :=
  .object [("type", .string "ping"), ("src", .string src), ("dst", .string dst),
    ("statistics", .object [("avg", .number latency)])]

theorem pingOutput_measurement (src dst : String) (latency : ℚ) :
    (pingOutput src dst latency).measurement = .ok (some ⟨.string dst, .string src, latency⟩) := rfl

def ScamperRecord.ping (src dst : String) (latency : ℚ) (nonneg : 0 ≤ latency) : ScamperRecord where
  output := pingOutput src dst latency
  scamper := .ping src dst [("avg", .number latency)] rfl rfl rfl rfl fun _ found =>
    ⟨latency, (Option.some.inj found).symm, nonneg⟩

theorem Json.measurement_other {output : Json} {type : String} (typed : output.item "type" = .ok (.string type))
    (notPing : type ≠ "ping") : output.measurement = .ok none := by
  have differs : (Json.string type).isString "ping" = false := by
    simpa [Json.isString] using notPing
  simp [Json.measurement, Json.pingFields, typed, differs, bind, Except.bind, pure, Except.pure]

theorem Json.measurement_blocked {output : Json} {statistics : List (String × Json)}
    (typed : output.item "type" = .ok (.string "ping"))
    (atStatistics : output.item "statistics" = .ok (.object statistics))
    (blocked : findEntry "avg" statistics = none) : output.measurement = .ok none := by
  simp [Json.measurement, Json.pingFields, typed, atStatistics, blocked, Json.isString, Json.contains, bind,
    Except.bind, pure, Except.pure]

theorem Json.measurement_ping {output : Json} {src dst : String} {statistics : List (String × Json)} {latency : ℚ}
    (typed : output.item "type" = .ok (.string "ping")) (atSrc : output.item "src" = .ok (.string src))
    (atDst : output.item "dst" = .ok (.string dst))
    (atStatistics : output.item "statistics" = .ok (.object statistics))
    (timed : findEntry "avg" statistics = some (.number latency)) :
    output.measurement = .ok (some ⟨.string dst, .string src, latency⟩) := by
  have atAvg : (Json.object statistics).item "avg" = .ok (.number latency) := by
    simp [Json.item, timed]
  simp [Json.measurement, Json.pingFields, typed, atSrc, atDst, atStatistics, atAvg, timed, Json.isString,
    Json.contains, bind, Except.bind, pure, Except.pure]

/-- A scamper record is never rejected, and what it measures is between two
strings with a latency that is not negative. -/
theorem IsScamper.measurement {output : Json} (scamper : IsScamper output) :
    ∃ found, output.measurement = .ok found ∧ ∀ m ∈ found,
      (∃ dst, m.client = .string dst) ∧ (∃ src, m.replica = .string src) ∧ 0 ≤ m.latency := by
  cases scamper with
  | other type typed notPing => exact ⟨none, Json.measurement_other typed notPing, nofun⟩
  | ping src dst statistics typed atSrc atDst atStatistics timed =>
    cases found : findEntry "avg" statistics with
    | none => exact ⟨none, Json.measurement_blocked typed atStatistics found, nofun⟩
    | some avg =>
      obtain ⟨latency, rfl, positive⟩ := timed avg found
      refine ⟨_, Json.measurement_ping typed atSrc atDst atStatistics found, ?_⟩
      rintro m ⟨⟩
      exact ⟨⟨dst, rfl⟩, ⟨src, rfl⟩, positive⟩

def ScamperRecord.measurement (record : ScamperRecord) : Option Measurement :=
  match record.output.measurement with
  | .ok found => found
  | .error _ => none

theorem ScamperRecord.measurement_spec (record : ScamperRecord) :
    record.output.measurement = .ok record.measurement := by
  obtain ⟨found, read, _⟩ := record.scamper.measurement
  rw [ScamperRecord.measurement, read]

end SimpleCdn
