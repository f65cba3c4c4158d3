import SimpleCdn.Wire
import SimpleCdn.Lib.Text

namespace SimpleCdn

/-- What running a command comes to: what it printed, or why it was not started. -/
inductive CommandResult
  | output (stdout : String)
  | error (message : String)

def scamperOptions : List String := ["-i", "-O", "json", "-c", "ping -c 1"]

def scamperArguments (ipList : String) : List String := scamperOptions ++ splitWhitespace ipList

/-- The handler of the ping route, on the text of the request's body. -/
def ping (scamper : List String → CommandResult) (ipList : String) : HttpResponse :=
  match scamper (scamperArguments ipList) with
  | .output stdout => ⟨200, stdout⟩
  | .error message => ⟨500, message⟩

/-- A text of the form of an IPv4 address. -/
def IsIpv4 (text : String) : Prop :=
  ∃ a b c d : Fin 256, text = ".".intercalate [a.val.repr, b.val.repr, c.val.repr, d.val.repr]

theorem IsIpv4.toList {text : String} (ipv4 : IsIpv4 text) :
    text.toList ≠ [] ∧ ∀ ch ∈ text.toList, ch = '.' ∨ ch.isDigit := by
  obtain ⟨a, b, c, d, rfl⟩ := ipv4
  have digits : ∀ n : Nat, ∀ ch ∈ n.repr.toList, ch = '.' ∨ ch.isDigit := by
    intro n ch member
    rw [Nat.toList_repr] at member
    exact Or.inr (Nat.isDigit_of_mem_toDigits (by omega) (by omega) member)
  have dot : ∀ ch ∈ ".".toList, ch = '.' ∨ ch.isDigit := fun ch here => Or.inl (by simpa using here)
  constructor
  · obtain ⟨ch, member⟩ := List.exists_mem_of_ne_nil _ (Nat.toDigits_ne_nil (n := a.val) (b := 10))
    rw [String.toList_intercalate]
    simp only [List.map_cons, List.intercalate_cons_cons, Nat.toList_repr]
    exact List.ne_nil_of_mem (List.mem_append_left _ (List.mem_append_left _ member))
  · refine forall_mem_intercalate dot ?_
    simp only [List.forall_mem_cons]
    exact ⟨digits a, digits b, digits c, digits d, List.forall_mem_nil _⟩

theorem isWhitespace_of_isDigit {ch : Char} (digit : ch.isDigit) : isWhitespace ch = false := by
  simp only [Char.isDigit, Bool.and_eq_true, decide_eq_true_eq] at digit
  obtain ⟨low, high⟩ := digit
  have lower : 48 ≤ ch.toNat := low
  have upper : ch.toNat ≤ 57 := high
  exact isWhitespace_of_printable (by omega) (by omega)

/-- Addresses joined by spaces are taken apart into the same arguments. -/
theorem scamperArguments_join {clients : List String} (ipv4 : ∀ client ∈ clients, IsIpv4 client) :
    scamperArguments (" ".intercalate clients) = scamperOptions ++ clients := by
  rw [scamperArguments, splitWhitespace_intercalate]
  · intro client member empty
    exact (ipv4 client member).toList.1 (by rw [empty]; rfl)
  · intro client member ch inText
    rcases (ipv4 client member).toList.2 ch inText with rfl | digit
    · decide
    · exact isWhitespace_of_isDigit digit

end SimpleCdn
