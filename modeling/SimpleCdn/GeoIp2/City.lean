import SimpleCdn.Dns.Resolve
import SimpleCdn.MaxMindDb.Opening

namespace SimpleCdn.GeoIp2
open MaxMindDb

/-- `_parse_octet` of the standard library: up to three decimal digits without a
leading zero. -/
def parseOctet (octet : String) : Option Nat :=
  let digits := octet.toList
  let value := digits.foldl (fun n digit => n * 10 + (digit.toNat - '0'.toNat)) 0
  if digits ≠ [] ∧ digits.all Char.isDigit ∧ digits.length ≤ 3 ∧
    (octet = "0" ∨ digits.head? ≠ some '0') ∧ value ≤ 255
  then some value else none

/-- The four bytes of an IPv4 address in dotted form. -/
def ipv4Packed (text : String) : Option (List UInt8) :=
  match (splitOnChar '.' text).map parseOctet with
  | [some a, some b, some c, some d] => some [UInt8.ofNat a, UInt8.ofNat b, UInt8.ofNat c, UInt8.ofNat d]
  | _ => none

theorem length_ipv4Packed {text : String} {packed : List UInt8} (parsed : ipv4Packed text = some packed) :
    packed.length = IpVersion.v4.size := by
  unfold ipv4Packed at parsed
  split at parsed
  · cases parsed
    rfl
  · cases parsed

/-- `ip_address` on the texts of IPv4 addresses, which are all that the program
looks up. -/
def ipAddress (text : String) : Except ReadError IpAddress :=
  match parsed : ipv4Packed text with
  | some packed => .ok ⟨.v4, packed, length_ipv4Packed parsed, text⟩
  | none => .error (.valueError s!"'{text}' does not appear to be an IPv4 or IPv6 address")

/-- `text in value`. -/
def isIn (text : String) : Record → Except ReadError Bool
  | .string whole => .ok (decide (text.toList <:+: whole.toList))
  | .map items => .ok (items.any fun item => item.1 = .string text)
  | .array items => .ok (items.any fun item => match item with | .string member => member = text | _ => false)
  | .bytes _ => .error (.typeError "a bytes-like object is required, not 'str'")
  | _ => .error (.typeError "argument is not iterable")

/-- The name of a database's type in a message. -/
def shown : Record → String
  | .string text => text
  | _ => ""

/-- The keyword arguments of `f(..., **argument)`, where some parameters of `f`
already have their values. -/
def keywordArguments (taken : List String) : Record → Except ReadError (List (RecordKey × Record))
  | .map items =>
    if !items.all (isString ·.1) then .error (.typeError "keywords must be strings")
    else
      match taken.find? fun name => (findEntry (.string name) items).isSome with
      | some name => .error (.typeError s!"got multiple values for argument '{name}'")
      | none => .ok items
  | _ => .error (.typeError "argument after ** must be a mapping")

section Models
variable (ipNetwork : Record → Except ReadError Unit) (raw : List (RecordKey × Record))

/-- The arguments of a record of `geoip2.records`, made from a part of the response. -/
def recordArguments (part : String) (taken : List String) : Except ReadError (List (RecordKey × Record)) :=
  keywordArguments taken ((findEntry (.string part) raw).getD (.map []))

/-- The items that `*raw_response.get("subdivisions", [])` hands on. -/
def subdivisionItems : Record → Except ReadError (List Record)
  | .array items => .ok items
  | .map items => .ok (items.map fun _ => .string "")
  | .string text => .ok (text.toList.map fun _ => .string "")
  | .bytes content => .ok (content.map fun _ => .int 0)
  | _ => .error (.typeError "argument after * must be an iterable")

/-- `Country(raw_response)`, for what it raises. A network in the traits is parsed. -/
def newCountry : Except ReadError Unit := do
  discard (recordArguments raw "continent" ["self", "locales"])
  discard (recordArguments raw "country" ["self", "locales"])
  discard (recordArguments raw "registered_country" ["self", "locales"])
  discard (recordArguments raw "represented_country" ["self", "locales"])
  discard (recordArguments raw "maxmind" ["self"])
  let traits ← recordArguments raw "traits" ["self"]
  match findEntry (.string "network") traits with
  | some network => ipNetwork network
  | none => return ()

/-- `City(raw_response)`: its location, or what it raises. -/
def newCity : Except ReadError (Location Record) := do
  newCountry ipNetwork raw
  discard (recordArguments raw "city" ["self", "locales"])
  let location ← recordArguments raw "location" ["self"]
  discard (recordArguments raw "postal" ["self"])
  let subdivisions ← subdivisionItems ((findEntry (.string "subdivisions") raw).getD (.array []))
  subdivisions.forM fun subdivision => discard (keywordArguments ["self", "locales"] subdivision)
  return ⟨findEntry (.string "latitude") location, findEntry (.string "longitude") location⟩

end Models

/-- `record.setdefault("traits", {})`, and what is stored in it. -/
def withTraits (record : Record) (ipAddress : String) (prefixLen : Nat) :
    Except ReadError (List (RecordKey × Record)) :=
  match record with
  | .map items =>
    match (findEntry (.string "traits") items).getD (.map []) with
    | .map traits =>
      let traits := putEntry (.string "prefix_len") (.int prefixLen)
        (putEntry (.string "ip_address") (.string ipAddress) traits)
      .ok (putEntry (.string "traits") (.map traits) items)
    | .array _ => .error (.typeError "list indices must be integers or slices, not str")
    | _ => .error (.typeError "object does not support item assignment")
  | _ => .error (.attributeError "object has no attribute 'setdefault'")

section Reader
variable (ipNetwork : Record → Except ReadError Unit) (limit : Nat) (reader : Reader)

/-- `_get`: the record of an address, in a database of the right type. -/
def get (databaseType ip : String) : ReaderM (Record × Nat) := do
  if !(← raise (isIn databaseType reader.metadata.databaseType)) then
    throw (.typeError s!"The city method cannot be used with the {shown reader.metadata.databaseType} database")
  let address ← raise (ipAddress ip)
  match ← reader.getWithPrefixLen limit address with
  | (some record, prefixLen) => return (record, prefixLen)
  | (none, prefixLen) => throw (.addressNotFoundError s!"The address {ip} is not in the database." ip prefixLen)

/-- `Reader.city`. -/
def city (ip : String) : ReaderM (Location Record) := do
  let (record, prefixLen) ← get limit reader "City" ip
  let raw ← raise (withTraits record ip prefixLen)
  raise (newCity ipNetwork raw)

end Reader

section Coordinates
variable (ipNetwork : Record → Except ReadError Unit) (toFloat : Record → Except ReadError PyFloat) (mode : Mode)
  (limit : Nat) (file : List UInt8)

/-- `float` of what may be missing. Of values that are no floats the conversion
is that of the standard library. -/
def coordinate : Option Record → Except ReadError PyFloat
  | some (.float value) => .ok value
  | some other => toFloat other
  | none => .error (.typeError "float() argument must be a string or a real number, not 'NoneType'")

/-- `find_location_coordinates` without its cache: the database is opened for
this one lookup. -/
def readLocationCoordinates (ip : String) : Except ReadError (PyFloat × PyFloat) := do
  let reader ← openReader mode limit "GeoLite2-City.mmdb" file
  let location ← outcome ((city ipNetwork limit reader ip).run none)
  let lat ← coordinate toFloat location.latitude
  let lon ← coordinate toFloat location.longitude
  return (lat, lon)

/-- The last 128 coordinates are remembered. -/
def findLocationCoordinates (ip : String) :
    EStateM ReadError (LruCache String (PyFloat × PyFloat)) (PyFloat × PyFloat) :=
  lruCached 128 (readLocationCoordinates ipNetwork toFloat mode limit file) ip

end Coordinates

end SimpleCdn.GeoIp2
