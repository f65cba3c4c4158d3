import SimpleCdn.GeoIp2.City
import SimpleCdn.Lib.Simulation
import SimpleCdn.MaxMindDb.Database
import SimpleCdn.Replica.Ping

namespace SimpleCdn.GeoIp2
open MaxMindDb

section Dictionaries

/-- The datum of a key in a map: that of its last entry. -/
def entryOf (key : String) : List (String × Datum) → Option Datum
  | [] => none
  | entry :: rest =>
    match entryOf key rest with
    | some datum => some datum
    | none => if entry.1 = key then some entry.2 else none

theorem setItem_string (key : String) (value : Record) (container : List (RecordKey × Record)) :
    setItem (.string key) value container = putEntry (.string key) value container := if_neg nofun

theorem findEntry_dictionary (key : String) (entries : List (String × Datum))
    (container : List (RecordKey × Record)) :
    findEntry (.string key) (dictionary entries container) =
      match entryOf key entries with
      | some datum => some datum.value
      | none => findEntry (.string key) container := by
  induction entries generalizing container with
  | nil => rfl
  | cons entry rest ih =>
    rw [dictionary, ih, setItem_string, findEntry_put, entryOf]
    cases entryOf key rest with
    | some datum => rfl
    | none =>
      by_cases here : entry.1 = key
      · simp only [here, if_true]
      · rw [if_neg here, if_neg fun same => here (RecordKey.string.inj same).symm]

theorem all_strings_iff {items : List (RecordKey × Record)} :
    items.all (isString ·.1) = true ↔ ∀ key ∈ items.map Prod.fst, isString key = true := by
  rw [List.all_eq_true, List.forall_mem_map]

theorem putEntry_strings {key : String} {value : Record} {items : List (RecordKey × Record)}
    (strings : items.all (isString ·.1) = true) :
    (putEntry (.string key) value items).all (isString ·.1) = true := by
  rw [all_strings_iff] at strings ⊢
  intro key' member
  rw [putEntry_keys] at member
  split_ifs at member
  · exact strings key' member
  · rcases List.mem_append.mp member with old | new
    · exact strings key' old
    · rw [List.mem_singleton.mp new]
      rfl

theorem dictionary_strings (entries : List (String × Datum)) {container : List (RecordKey × Record)}
    (strings : container.all (isString ·.1) = true) : (dictionary entries container).all (isString ·.1) = true := by
  induction entries generalizing container with
  | nil => exact strings
  | cons entry rest ih =>
    rw [dictionary, setItem_string]
    exact ih (putEntry_strings strings)

end Dictionaries

section Cities

/-- What can be handed on as keyword arguments, where some parameters have their
values already: nothing, or a map that does not name them. -/
def IsPart (taken : List String) : Option Datum → Prop
  | none => True
  | some (.map entries) => ∀ name ∈ taken, entryOf name entries = none
  | some _ => False

/-- The entries of a part, where there is one. -/
def entriesOf : Option Datum → List (String × Datum)
  | some (.map place) => place
  | _ => []

/-- What can be handed on as subdivisions. -/
def AreSubdivisions : Option Datum → Prop
  | none => True
  | some (.array items) => ∀ item ∈ items, IsPart ["self", "locales"] (some item)
  | some _ => False

/-- A coordinate is a double, where it is known. -/
def IsCoordinate : Option Datum → Prop
  | none => True
  | some (.double _) => True
  | some _ => False

def coordinateOf : Option Datum → Option PyFloat
  | some (.double bits) => some (.ofDouble bits.toNat)
  | _ => none

/-- The location of a city. -/
def locationOf (entries : List (String × Datum)) : Location PyFloat :=
  let place := entriesOf (entryOf "location" entries)
  ⟨coordinateOf (entryOf "latitude" place), coordinateOf (entryOf "longitude" place)⟩

/-- A map in the form of the records of a city database. -/
structure IsCity (entries : List (String × Datum)) : Prop where
  named : ∀ part ∈ ["continent", "country", "registered_country", "represented_country", "city"],
    IsPart ["self", "locales"] (entryOf part entries)
  unnamed : ∀ part ∈ ["maxmind", "location", "postal"], IsPart ["self"] (entryOf part entries)
  traits : IsPart ["self", "network"] (entryOf "traits" entries)
  subdivisions : AreSubdivisions (entryOf "subdivisions" entries)
  latitude : IsCoordinate (entryOf "latitude" (entriesOf (entryOf "location" entries)))
  longitude : IsCoordinate (entryOf "longitude" (entriesOf (entryOf "location" entries)))

variable {taken : List String} {entries : List (String × Datum)}

theorem keywordArguments_of_free {items : List (RecordKey × Record)} (strings : items.all (isString ·.1) = true)
    (free : ∀ name ∈ taken, findEntry (.string name) items = none) :
    keywordArguments taken (.map items) = .ok items := by
  have absent : taken.find? (fun name => (findEntry (.string name) items).isSome) = none := by
    rw [List.find?_eq_none]
    intro name member
    rw [free name member]
    exact Bool.false_ne_true
  rw [keywordArguments, if_neg (by rw [strings]; exact Bool.false_ne_true), absent]

theorem IsPart.value {datum : Option Datum} (part : IsPart taken datum) :
    (datum.map Datum.value).getD (.map []) = .map (dictionary (entriesOf datum) []) ∧
      ∀ name ∈ taken, entryOf name (entriesOf datum) = none := by
  cases datum with
  | none => exact ⟨rfl, fun _ _ => rfl⟩
  | some datum =>
    cases datum with
    | map place => exact ⟨rfl, part⟩
    | _ => exact part.elim

theorem findEntry_dictionary_nil (key : String) (entries : List (String × Datum)) :
    findEntry (.string key) (dictionary entries []) = (entryOf key entries).map Datum.value := by
  rw [findEntry_dictionary]
  cases entryOf key entries <;> rfl

theorem IsPart.keywordArguments {datum : Option Datum} (part : IsPart taken datum) :
    keywordArguments taken ((datum.map Datum.value).getD (.map [])) = .ok (dictionary (entriesOf datum) []) := by
  obtain ⟨value, free⟩ := part.value
  rw [value]
  refine keywordArguments_of_free (dictionary_strings _ rfl) fun name member => ?_
  rw [findEntry_dictionary_nil, free name member]
  rfl

theorem subdivisions_pass {items : List Datum} (parts : ∀ item ∈ items, IsPart ["self", "locales"] (some item)) :
    ((values items).forM fun subdivision => discard (keywordArguments ["self", "locales"] subdivision)) = .ok () := by
  induction items with
  | nil => rfl
  | cons item rest ih =>
    have arguments := (parts item (List.mem_cons_self ..)).keywordArguments
    rw [Option.map_some, Option.getD_some] at arguments
    rw [values, List.forM, arguments]
    exact ih fun other member => parts other (List.mem_cons_of_mem item member)

theorem AreSubdivisions.pass {datum : Option Datum} (are : AreSubdivisions datum) :
    ∃ items, subdivisionItems ((datum.map Datum.value).getD (.array [])) = .ok items ∧
      (items.forM fun subdivision => discard (GeoIp2.keywordArguments ["self", "locales"] subdivision)) = .ok () := by
  cases datum with
  | none => exact ⟨[], rfl, rfl⟩
  | some datum =>
    cases datum with
    | array items => exact ⟨values items, rfl, subdivisions_pass are⟩
    | _ => exact are.elim

/-- A response with the parts of a city, in whatever order. -/
structure Responds (entries : List (String × Datum)) (raw : List (RecordKey × Record)) : Prop where
  part : ∀ name, name ≠ "traits" → findEntry (.string name) raw = (entryOf name entries).map Datum.value
  traits : ∃ arguments, recordArguments raw "traits" ["self"] = .ok arguments ∧
    findEntry (.string "network") arguments = none

/-- The two entries that are added to the traits do no harm. -/
theorem IsCity.withTraits (isCity : IsCity entries) (ip : String) (prefixLen : Nat) :
    ∃ raw, withTraits (Datum.map entries).value ip prefixLen = .ok raw ∧ Responds entries raw := by
  obtain ⟨value, free⟩ := isCity.traits.value
  let old := dictionary (entriesOf (entryOf "traits" entries)) []
  let traits := putEntry (.string "prefix_len") (.int prefixLen) (putEntry (.string "ip_address") (.string ip) old)
  have absent : ∀ name ∈ ["self", "network"], findEntry (.string name) traits = none := by
    intro name member
    have none : findEntry (.string name) old = none := by
      rw [findEntry_dictionary_nil, free name member]
      rfl
    have others : name ≠ "prefix_len" ∧ name ≠ "ip_address" := by
      simp only [List.mem_cons, List.not_mem_nil, or_false] at member
      rcases member with rfl | rfl <;> decide
    rw [findEntry_put, if_neg (by simpa using others.1), findEntry_put, if_neg (by simpa using others.2), none]
  refine ⟨putEntry (.string "traits") (.map traits) (dictionary entries []), ?_, fun name other => ?_, traits, ?_,
    ?_⟩
  · simp only [GeoIp2.withTraits, Datum.value, findEntry_dictionary_nil, value]
    rfl
  · rw [findEntry_put, if_neg (by simpa using other), findEntry_dictionary_nil]
  · rw [recordArguments, findEntry_put, if_pos rfl, Option.getD_some]
    refine keywordArguments_of_free (putEntry_strings (putEntry_strings (dictionary_strings _ rfl))) ?_
    exact fun name member => absent name (by simp only [List.mem_singleton.mp member, List.mem_cons, true_or])
  · exact absent "network" (by simp only [List.mem_cons, true_or, or_true])

theorem IsCoordinate.value {datum : Option Datum} (coordinate : IsCoordinate datum) :
    datum.map Datum.value = (coordinateOf datum).map .float := by
  cases datum with
  | none => rfl
  | some datum =>
    cases datum with
    | double bits => rfl
    | _ => exact coordinate.elim

theorem discard_ok {α : Type} (value : α) : discard (.ok value : Except ReadError α) = .ok () := rfl

theorem Responds.arguments {raw : List (RecordKey × Record)} (responds : Responds entries raw) {name : String}
    (other : name ≠ "traits") (part : IsPart taken (entryOf name entries)) :
    recordArguments raw name taken = .ok (dictionary (entriesOf (entryOf name entries)) []) := by
  rw [recordArguments, responds.part name other, part.keywordArguments]

/-- The model of a city has the location of its datum. -/
theorem IsCity.newCity (isCity : IsCity entries) {raw : List (RecordKey × Record)}
    (responds : Responds entries raw) (ipNetwork : Record → Except ReadError Unit) :
    newCity ipNetwork raw = .ok ⟨(locationOf entries).latitude.map .float,
      (locationOf entries).longitude.map .float⟩ := by
  have named : ∀ part ∈ ["continent", "country", "registered_country", "represented_country", "city"],
      recordArguments raw part ["self", "locales"] = .ok (dictionary (entriesOf (entryOf part entries)) []) := by
    intro part member
    refine responds.arguments ?_ (isCity.named part member)
    rintro rfl
    simp at member
  have unnamed : ∀ part ∈ ["maxmind", "location", "postal"],
      recordArguments raw part ["self"] = .ok (dictionary (entriesOf (entryOf part entries)) []) := by
    intro part member
    refine responds.arguments ?_ (isCity.unnamed part member)
    rintro rfl
    simp at member
  simp only [List.forall_mem_cons, List.not_mem_nil, IsEmpty.forall_iff, implies_true, and_true] at named unnamed
  obtain ⟨continent, country, registered, represented, cityPart⟩ := named
  obtain ⟨maxmind, place, postal⟩ := unnamed
  obtain ⟨traits, traitsPart, network⟩ := responds.traits
  obtain ⟨subdivisions, handed, pass⟩ := isCity.subdivisions.pass
  have countryPart : newCountry ipNetwork raw = .ok () := by
    simp only [newCountry, continent, country, registered, represented, maxmind, traitsPart, discard_ok, ok_bind,
      network]
    rfl
  simp only [GeoIp2.newCity, countryPart, cityPart, place, postal, responds.part "subdivisions" (by decide), handed,
    pass, discard_ok, ok_bind, findEntry_dictionary_nil, isCity.latitude.value, isCity.longitude.value]
  rfl

end Cities

section Addresses

end Addresses

section Database
variable {ipNetwork : Record → Except ReadError Unit} {toFloat : Record → Except ReadError PyFloat} {limit : Nat}
  {ip : String} {address : IpAddress}

/-- What becomes of what is found for an address. -/
def located (ipNetwork : Record → Except ReadError Unit) (ip : String) :
    Option Record × Nat → Except ReadError (Location Record)
  | (some record, prefixLen) => withTraits record ip prefixLen >>= newCity ipNetwork
  | (none, prefixLen) => .error (.addressNotFoundError s!"The address {ip} is not in the database." ip prefixLen)

theorem get_transparent {databaseType : String} {reader : Reader}
    (right : isIn databaseType reader.metadata.databaseType = .ok true) (parsed : ipAddress ip = .ok address) :
    Transparent reader.Remembers (get limit reader databaseType ip) (reader.lookup limit address >>= fun found =>
      match found with
      | (some record, prefixLen) => .ok (record, prefixLen)
      | (none, prefixLen) =>
        .error (.addressNotFoundError s!"The address {ip} is not in the database." ip prefixLen)) := by
  unfold get
  rw [right, parsed]
  refine (reader.getWithPrefixLen_transparent limit address).bind fun found _ => ?_
  obtain ⟨record, prefixLen⟩ := found
  cases record <;> exact Transparent.unchanged fun _ => rfl

theorem city_transparent {reader : Reader} (cities : isIn "City" reader.metadata.databaseType = .ok true)
    (parsed : ipAddress ip = .ok address) : Transparent reader.Remembers (city ipNetwork limit reader ip)
      (reader.lookup limit address >>= located ipNetwork ip) := by
  have assoc : (reader.lookup limit address >>= located ipNetwork ip) =
      ((reader.lookup limit address >>= fun found =>
        match found with
        | (some record, prefixLen) => .ok (record, prefixLen)
        | (none, prefixLen) =>
          .error (.addressNotFoundError s!"The address {ip} is not in the database." ip prefixLen)) >>=
          fun found => withTraits found.1 ip found.2 >>= newCity ipNetwork) := by
    cases reader.lookup limit address with
    | error raised => rfl
    | ok found =>
      obtain ⟨record, prefixLen⟩ := found
      cases record <;> rfl
  rw [assoc]
  refine (get_transparent cities parsed).bind fun found _ => ?_
  exact (Transparent.unchanged fun _ => rfl).bind fun raw _ => Transparent.unchanged fun _ => rfl

/-- A city database: the metadata say so, and every network that has a datum has
a city. -/
structure IsCityDatabase (db : Database) : Prop where
  cities : "City".toList <:+: db.databaseType.toList
  city : ∀ network ∈ db.tree.networks, ∀ datum ∈ network.2,
    ∃ entries, datum = .map entries ∧ IsCity entries

variable {db : Database} {network : List Bool × Option Datum}

section Files
variable (ipNetwork : Record → Except ReadError Unit) (toFloat : Record → Except ReadError PyFloat) (mode : Mode)

/-- What a lookup of the program comes to: the two coordinates of the city of the
network that contains the address. -/
theorem readLocationCoordinates_looked (readable : db.Readable limit) (isCityDatabase : IsCityDatabase db)
    (parsed : ipAddress ip = .ok address) (four : address.version = .v4) (contains : db.Contains network address) :
    readLocationCoordinates ipNetwork toFloat mode limit db.file ip =
      match network.2 with
      | some (.map entries) => do
        let lat ← coordinate toFloat ((locationOf entries).latitude.map .float)
        let lon ← coordinate toFloat ((locationOf entries).longitude.map .float)
        return (lat, lon)
      | _ => .error (.addressNotFoundError s!"The address {ip} is not in the database." ip
          (network.1.length - db.skipped address)) := by
  have cities : isIn "City" db.reader.metadata.databaseType = .ok true :=
    congrArg Except.ok (decide_eq_true isCityDatabase.cities)
  have possible : ¬ (address.version = .v6 ∧ db.version = .v4) := by
    rw [four]
    exact fun both => IpVersion.noConfusion both.1
  have opened : openReader mode limit "GeoLite2-City.mmdb" db.file = .ok db.reader := readable.opened mode _
  have found : outcome ((city ipNetwork limit db.reader ip).run none) = _ :=
    (city_transparent cities parsed).outcome_eq db.reader.remembers_none
  rw [readable.lookup possible contains, ok_bind] at found
  rw [readLocationCoordinates, opened, ok_bind, found]
  cases stored : network.2 with
  | none => rfl
  | some datum =>
    obtain ⟨entries, rfl, isCity⟩ := isCityDatabase.city network contains.1 datum stored
    obtain ⟨raw, responds, parts⟩ := isCity.withTraits ip (network.1.length - db.skipped address)
    rw [Option.map_some, located, responds, ok_bind, isCity.newCity parts, ok_bind]

/-- Whatever is looked up, and however often, the cache is not noticed: each call
comes to what the file has, and what is remembered is what was read. -/
theorem coordinates_cached (mode : Mode) (limit : Nat) (file : List UInt8) (ips : List String) :
    let calls := ips.map (findLocationCoordinates ipNetwork toFloat mode limit file)
    outcomes calls LruCache.empty = ips.map (readLocationCoordinates ipNetwork toFloat mode limit file) ∧
      (stateAfter calls LruCache.empty).Sound 128 (readLocationCoordinates ipNetwork toFloat mode limit file) := by
  have each : ∀ ip, Transparent (LruCache.Sound 128 (readLocationCoordinates ipNetwork toFloat mode limit file))
      (findLocationCoordinates ipNetwork toFloat mode limit file ip)
      (readLocationCoordinates ipNetwork toFloat mode limit file ip) := lruCached_transparent (by decide) _
  have start := LruCache.sound_empty 128 (readLocationCoordinates ipNetwork toFloat mode limit file)
  refine ⟨Transparent.outcomes each ips start, Keeps.stateAfter ?_ start⟩
  exact List.forall_mem_map.mpr fun ip _ => (each ip).keeps

theorem upperHalf_isCityDatabase : IsCityDatabase Database.upperHalf where
  cities := by decide
  city := by
    intro network member datum stored
    rcases List.mem_cons.mp member with lower | upper
    · rw [lower] at stored
      cases stored
    · rw [List.mem_singleton.mp upper] at stored
      cases stored
      refine ⟨_, rfl, ?_, ?_, trivial, trivial, trivial, trivial⟩
      · simp only [List.forall_mem_cons]
        exact ⟨trivial, trivial, trivial, trivial, trivial, List.forall_mem_nil _⟩
      · simp only [List.forall_mem_cons]
        refine ⟨trivial, fun name self => ?_, trivial, List.forall_mem_nil _⟩
        rw [List.mem_singleton.mp self]
        rfl

/-- The addresses of the upper half are all in its city. -/
theorem coordinates_of_upper (parsed : ipAddress ip = .ok address) (four : address.version = .v4)
    (upper : [true] <+: Database.upperHalf.bits address) :
    readLocationCoordinates ipNetwork toFloat mode 100 Database.upperHalf.file ip =
      .ok (.ofDouble 0x404D000000000000, .ofDouble 0xC010000000000000) := by
  have contains : Database.upperHalf.Contains ([true], some Database.upperCity) address :=
    ⟨List.mem_cons_of_mem _ (List.mem_cons_self ..), upper⟩
  exact readLocationCoordinates_looked ipNetwork toFloat mode Database.upperHalf_readable
    upperHalf_isCityDatabase parsed four contains

end Files

end Database

end SimpleCdn.GeoIp2
