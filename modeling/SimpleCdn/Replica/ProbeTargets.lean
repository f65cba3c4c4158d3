import SimpleCdn.Replica.Ping
import SimpleCdn.Replica.Routes

namespace SimpleCdn

/-- A group of an IPv6 address in hexadecimal digits. -/
def IsHexGroup (text : String) : Prop :=
  1 ≤ text.length ∧ text.length ≤ 4 ∧ ∀ c ∈ text.toList, c.isHexDigit

/-- A text of the form of an IPv6 address: eight groups, or fewer with a double
colon for the groups of zeros left out. The last two groups may be written as
an IPv4 address. -/
def IsIpv6 (text : String) : Prop :=
  ∃ (front back : List String) (quad : Option String),
    (∀ group ∈ front ++ back, IsHexGroup group) ∧ (∀ last ∈ quad, IsIpv4 last) ∧
    (back = [] ∧ front.length + 2 * quad.toList.length = 8 ∧ text = ":".intercalate (front ++ quad.toList) ∨
      front.length + back.length + 2 * quad.toList.length ≤ 7 ∧
        text = ":".intercalate front ++ "::" ++ ":".intercalate (back ++ quad.toList))

def IsIpAddress (text : String) : Prop := IsIpv4 text ∨ IsIpv6 text

/-- The characters that addresses are written with. -/
def isAddressChar (c : Char) : Bool := c.isHexDigit || c == '.' || c == ':'

theorem isAddressChar_bounds {c : Char} (address : isAddressChar c) :
    46 ≤ c.toNat ∧ c.toNat ≤ 102 := by
  simp only [isAddressChar, Char.isHexDigit, Char.isDigit, Bool.or_eq_true, Bool.and_eq_true, decide_eq_true_eq,
    beq_iff_eq] at address
  rcases address with (((⟨low, high⟩ | ⟨low, high⟩) | ⟨low, high⟩) | rfl) | rfl
  · have lower : 48 ≤ c.toNat := low
    have upper : c.toNat ≤ 57 := high
    omega
  · have lower : 97 ≤ c.toNat := low
    have upper : c.toNat ≤ 102 := high
    omega
  · have lower : 65 ≤ c.toNat := low
    have upper : c.toNat ≤ 70 := high
    omega
  · decide
  · decide

theorem isWhitespace_of_isAddressChar {c : Char} (address : isAddressChar c) : isWhitespace c = false := by
  obtain ⟨low, high⟩ := isAddressChar_bounds address
  exact isWhitespace_of_printable (by omega) (by omega)

theorem IsIpv4.address {text : String} (ipv4 : IsIpv4 text) : ∀ c ∈ text.toList, isAddressChar c := by
  intro c member
  rcases ipv4.toList.2 c member with rfl | digit
  · decide
  · simp [isAddressChar, Char.isHexDigit, digit]

theorem IsHexGroup.address {text : String} (group : IsHexGroup text) : ∀ c ∈ text.toList, isAddressChar c := by
  intro c member
  simp [isAddressChar, group.2.2 c member]

theorem IsIpv6.address {text : String} (ipv6 : IsIpv6 text) : ∀ c ∈ text.toList, isAddressChar c := by
  obtain ⟨front, back, quad, groups, ends, written⟩ := ipv6
  have colon : ∀ c ∈ ":".toList, isAddressChar c := List.all_eq_true.mp (by decide)
  have colons : ∀ c ∈ "::".toList, isAddressChar c := List.all_eq_true.mp (by decide)
  have inFront : ∀ piece ∈ front, ∀ c ∈ piece.toList, isAddressChar c :=
    fun piece member => (groups piece (List.mem_append_left back member)).address
  have inBack : ∀ piece ∈ back, ∀ c ∈ piece.toList, isAddressChar c :=
    fun piece member => (groups piece (List.mem_append_right front member)).address
  have inQuad : ∀ piece ∈ quad.toList, ∀ c ∈ piece.toList, isAddressChar c :=
    fun piece member => (ends piece (Option.mem_toList.mp member)).address
  rcases written with ⟨_, _, rfl⟩ | ⟨_, rfl⟩
  · exact forall_mem_intercalate colon (List.forall_mem_append.mpr ⟨inFront, inQuad⟩)
  · rw [String.toList_append, String.toList_append, List.forall_mem_append, List.forall_mem_append]
    exact ⟨⟨forall_mem_intercalate colon inFront, colons⟩,
      forall_mem_intercalate colon (List.forall_mem_append.mpr ⟨inBack, inQuad⟩)⟩

theorem IsIpAddress.address {text : String} (literal : IsIpAddress text) : ∀ c ∈ text.toList, isAddressChar c :=
  literal.elim IsIpv4.address IsIpv6.address

/-- An address is never read as an option. -/
theorem IsIpAddress.not_option {text : String} (literal : IsIpAddress text) : text.toList.head? ≠ some '-' := by
  intro dash
  have address := literal.address '-' (List.mem_of_mem_head? dash)
  exact absurd address (by decide)

/-- A POST of a body to the ping route. -/
def pingRequest (query : Option String) (body : ByteArray) : HttpRequest where
  method := "POST"
  path := ⟨"ping", List.all_iff_forall_prop.mp (by decide)⟩
  query := query
  body := body

theorem routes_pingRequest (query : Option String) (body : ByteArray) :
    routes (pingRequest query body) = some (.ping (fromUtf8Lossy body)) := rfl

/-- Behind its fixed options, scamper is given addresses to probe and nothing
that it would take for a further option. -/
def NamesProbeTargets (request : HttpRequest) : Prop :=
  ∃ ipList targets, routes request = some (.ping ipList) ∧ scamperArguments ipList = scamperOptions ++ targets ∧
    ∀ target ∈ targets, IsIpAddress target ∧ target.toList.head? ≠ some '-'

theorem names_probe_targets_words (query : Option String) (body : ByteArray) :
    NamesProbeTargets (pingRequest query body) ↔
      ∀ word ∈ splitWhitespace (fromUtf8Lossy body), IsIpAddress word := by
  constructor
  · rintro ⟨ipList, targets, routed, arguments, addresses⟩
    rw [routes_pingRequest] at routed
    cases routed
    rw [List.append_cancel_left arguments]
    exact fun word member => (addresses word member).1
  · exact fun addresses => ⟨_, _, routes_pingRequest query body, rfl,
      fun word member => ⟨addresses word member, (addresses word member).not_option⟩⟩

/-- A body names probe targets just when it is UTF-8 and consists of addresses
with white space between any two of them. -/
theorem names_probe_targets_iff (query : Option String) (body : ByteArray) :
    NamesProbeTargets (pingRequest query body) ↔
      ∃ text : String, body = text.toUTF8 ∧ Spaced isWhitespace IsIpAddress text.toList := by
  have free : ∀ word, IsIpAddress word → ∀ c ∈ word.toList, isWhitespace c = false :=
    fun word literal c member => isWhitespace_of_isAddressChar (literal.address c member)
  rw [names_probe_targets_words]
  constructor
  · intro addresses
    have clean : Char.ofNat 0xFFFD ∉ (fromUtf8Lossy body).toList := by
      intro lost
      obtain ⟨word, member, inWord⟩ := exists_mem_wordsBetween (p := isWhitespace) lost (by decide)
      exact absurd ((addresses word member).address _ inWord) (by decide)
    exact ⟨_, (toUTF8_of_not_mem_replacement clean).symm, (spaced_iff free _).mpr addresses⟩
  · rintro ⟨text, rfl, spaced⟩
    rw [fromUtf8Lossy_toUTF8]
    exact (spaced_iff free text).mp spaced

/-- The requests of the DNS server name probe targets while its clients are addresses. -/
theorem clients_name_probe_targets {clients : List String} (ipv4 : ∀ client ∈ clients, IsIpv4 client)
    (query : Option String) : NamesProbeTargets (pingRequest query (" ".intercalate clients).toUTF8) := by
  have arguments := scamperArguments_join ipv4
  rw [scamperArguments, List.append_cancel_left_eq] at arguments
  rw [names_probe_targets_words, fromUtf8Lossy_toUTF8, arguments]
  exact fun client member => Or.inl (ipv4 client member)

theorem clients_name_probe_targets_two :
    NamesProbeTargets (pingRequest none (" ".intercalate ["52.53.228.21", "35.175.146.183"]).toUTF8) := by
  refine clients_name_probe_targets ?_ none
  simp only [List.forall_mem_cons]
  exact ⟨⟨52, 53, 228, 21, by decide⟩, ⟨35, 175, 146, 183, by decide⟩, List.forall_mem_nil _⟩

/-- Of the two words, the first is an option and the second the file that
scamper then writes its output to. -/
theorem option_passed_to_scamper :
    ¬ NamesProbeTargets (pingRequest none "-o pings.json".toUTF8) := by
  rw [names_probe_targets_words, fromUtf8Lossy_toUTF8]
  intro addresses
  have words : splitWhitespace "-o pings.json" = ["-o", "pings.json"] := by decide
  rw [words] at addresses
  exact (addresses "-o" (List.mem_cons_self ..)).not_option (by decide)

end SimpleCdn
