import SimpleCdn.Dns.Messages
import Mathlib.Data.Bool.AllAny

namespace SimpleCdn

/-- The numbers by which a question asks for any type and any class. -/
def typeAny : Nat := 255

def classAny : Nat := 255

/-- The record is of a type and a class that the question asks for. -/
def DnsQuestion.AsksFor (question : DnsQuestion) (record : ResourceRecord) : Prop :=
  (question.qtype = record.rtype ∨ question.qtype = typeAny) ∧
    (question.qclass = record.rclass ∨ question.qclass = classAny)

/-- A response to the question that was asked. -/
structure AnswersQuery (query response : DnsMessage) : Prop where
  id : response.header.id = query.header.id
  opcode : response.header.opcode = query.header.opcode
  rd : response.header.rd = query.header.rd
  qtype : response.q.qtype = query.q.qtype
  qclass : response.q.qclass = query.q.qclass
  answers : ∀ record ∈ response.answers, query.q.AsksFor record

/-- Nothing but the identifier and the name is taken from the query, so it is
answered just when all else is as in the library's defaults. -/
theorem answers_query_iff (mnemonics : Mnemonics) (udpSock : Address) (query : DnsMessage) (address : Address)
    (resolved : String) :
    AnswersQuery query (processRequest mnemonics udpSock query address resolved).payload ↔
      query.header.opcode = 0 ∧ query.header.rd = true ∧ query.q.qtype = typeA ∧ query.q.qclass = classIn := by
  constructor
  · exact fun answers => ⟨answers.opcode.symm, answers.rd.symm, answers.qtype.symm, answers.qclass.symm⟩
  · rintro ⟨opcode, rd, qtype, qclass⟩
    refine ⟨rfl, opcode.symm, rd.symm, qtype.symm, qclass.symm, fun record member => ?_⟩
    rw [List.mem_singleton.mp member]
    exact ⟨Or.inl qtype, Or.inl qclass⟩

/-- A query for the IPv6 address of a name, and where it comes from. -/
def ipv6Query : Datagram where
  payload := ⟨DnsHeader.default 7, [⟨["cs5700cdn", "example", "com"], 28, classIn⟩], []⟩
  source := ("203.0.113.7", 53)
  destination := ("10.0.0.1", 25015)

theorem ipv6_query_not_answered :
    ¬ AnswersQuery ipv6Query.payload (processRequest ⟨fun _ => "IN", fun _ => "AAAA"⟩ ipv6Query.destination
      ipv6Query.payload ipv6Query.source "139.144.30.25").payload :=
  fun answers => absurd answers.qtype (by decide)

/-- The characters of the labels that are shown as they are: printable ASCII
without the space, the dot and the backslash. -/
def IsLabelChar (c : Char) : Prop := 0x21 ≤ c.toNat ∧ c.toNat ≤ 0x7E ∧ c ≠ '.' ∧ c ≠ '\\'

structure IsLabel (label : String) : Prop where
  nonempty : label ≠ ""
  printable : ∀ c ∈ label.toList, IsLabelChar c

instance (c : Char) : Decidable (IsLabelChar c) := inferInstanceAs (Decidable (_ ∧ _ ∧ _ ∧ _))

instance (label : String) : Decidable (IsLabel label) :=
  decidable_of_iff (label ≠ "" ∧ label.toList.all (fun c => decide (IsLabelChar c)) = true)
    ⟨fun both => ⟨both.1, List.all_iff_forall_prop.mp both.2⟩,
      fun isLabel => ⟨isLabel.nonempty, List.all_iff_forall_prop.mpr isLabel.printable⟩⟩

/-- The text of a name without its last dot is read as the name. -/
theorem readName_intercalate {name : DomainName} (labels : ∀ label ∈ name, IsLabel label)
    (notRoot : name ≠ []) :
    readName (String.ofList (['.'].intercalate (name.map String.toList))) = name := by
  have free : ∀ label ∈ name, '.' ∉ label.toList := fun label member dot =>
    ((labels label member).printable '.' dot).2.2.1 rfl
  have back := splitOnChar_intercalate free notRoot
  obtain ⟨front, last, ends, noDot⟩ :=
    intercalate_eq_concat (fun label member => (labels label member).nonempty) free notRoot
  rw [ends] at back ⊢
  have shown : ¬ (String.ofList (front ++ [last]) = "" ∨ String.ofList (front ++ [last]) = ".") := by
    rintro (empty | dot)
    · simpa using congrArg String.toList empty
    · have only : front ++ [last] = [] ++ ['.'] := by simpa using congrArg String.toList dot
      exact noDot (List.append_singleton_inj.mp only).2
  rw [readName, if_neg shown, String.toList_ofList, List.rdropWhile_concat_neg _ _ _ (by simpa using noDot)]
  exact back

/-- The separators of `split` are no characters of labels. -/
theorem IsLabelChar.not_separator {c : Char} (char : IsLabelChar c) :
    (isWhitespace c || (0x1C ≤ c.toNat && c.toNat ≤ 0x1F)) = false := by
  obtain ⟨low, high, _⟩ := char
  simp only [isWhitespace_of_printable low high, Bool.false_or, Bool.and_eq_false_iff, decide_eq_false_iff_not]
  omega

/-- However long the text is, a space follows it. -/
theorem padRight_append_space (width : Nat) (text after : String) :
    ∃ rest, (padRight width text ++ " " ++ after).toList = text.toList ++ ' ' :: rest := by
  have space : " ".toList = [' '] := by decide
  simp only [padRight, String.toList_append, String.toList_ofList, List.append_assoc, space]
  cases width - text.length with
  | zero => exact ⟨_, rfl⟩
  | succ more => exact ⟨List.replicate more ' ' ++ ' ' :: after.toList, rfl⟩

theorem nameText_plain {name : DomainName} (labels : ∀ label ∈ name, IsLabel label) :
    ∀ c ∈ (nameText name).toList, c = '.' ∨ IsLabelChar c := by
  intro c member
  unfold nameText at member
  split at member
  · exact Or.inl (by simpa using member)
  · rw [String.toList_join] at member
    obtain ⟨_, inName, inText⟩ := List.mem_flatMap.mp member
    obtain ⟨label, isLabel, rfl⟩ := List.mem_map.mp inName
    rw [String.toList_push] at inText
    rcases List.mem_append.mp inText with inLabel | dot
    · exact Or.inr ((labels label isLabel).printable c inLabel)
    · exact Or.inl (List.mem_singleton.mp dot)

/-- What is left of a question's text is the name without its last dot. -/
theorem questionName_questionText (mnemonics : Mnemonics) {question : DnsQuestion}
    (labels : ∀ label ∈ question.qname, IsLabel label) :
    questionName (questionText mnemonics question) = String.ofList (nameText question.qname).toList.dropLast := by
  obtain ⟨rest, shown⟩ := padRight_append_space 30 (nameText question.qname)
    (padRight 7 (mnemonics.classText question.qclass) ++ " " ++ mnemonics.typeText question.qtype)
  have text : questionText mnemonics question =
      String.ofList ((';' :: (nameText question.qname).toList) ++ ' ' :: rest) := by
    rw [← String.toList_inj, String.toList_ofList, List.cons_append, ← shown]
    simp [questionText]
  have free : ∀ c ∈ ';' :: (nameText question.qname).toList,
      (isWhitespace c || (0x1C ≤ c.toNat && c.toNat ≤ 0x1F)) = false := by
    rw [List.forall_mem_cons]
    refine ⟨by decide, fun c member => ?_⟩
    rcases nameText_plain labels c member with rfl | char
    · decide
    · exact char.not_separator
  rw [questionName, text, pythonSplit, wordsBetween_append_cons (by decide), wordsBetween_of_free free,
    if_neg (List.cons_ne_nil _ _)]
  simp

theorem readName_questionName (mnemonics : Mnemonics) {question : DnsQuestion}
    (labels : ∀ label ∈ question.qname, IsLabel label) :
    readName (questionName (questionText mnemonics question)) = question.qname := by
  rw [questionName_questionText mnemonics labels, nameText]
  by_cases root : question.qname = []
  · rw [if_pos root, root]
    rfl
  · rw [if_neg root, toList_join_push root, List.dropLast_concat]
    exact readName_intercalate labels root

/-- The name that was asked comes back from its text, and is the name of the
response's question and of its answer. -/
structure CarriesName (mnemonics : Mnemonics) (query response : DnsMessage) : Prop where
  recovered : readName (questionName (questionText mnemonics query.q)) = query.q.qname
  questions : response.questions.map DnsQuestion.qname = [query.q.qname]
  answers : response.answers.map ResourceRecord.rname = [query.q.qname]

theorem name_carried {query : DnsMessage} (labels : ∀ label ∈ query.q.qname, IsLabel label)
    (mnemonics : Mnemonics)
    (udpSock address : Address) (resolved : String) :
    CarriesName mnemonics query (processRequest mnemonics udpSock query address resolved).payload := by
  have recovered := readName_questionName mnemonics labels
  refine ⟨recovered, ?_, ?_⟩
  · simp only [processRequest, List.map_cons, List.map_nil, recovered]
  · simp only [processRequest, List.map_cons, List.map_nil, recovered]

theorem name_carried_ipv6Query :
    CarriesName ⟨fun _ => "IN", fun _ => "AAAA"⟩ ipv6Query.payload
      (processRequest ⟨fun _ => "IN", fun _ => "AAAA"⟩
      ipv6Query.destination ipv6Query.payload ipv6Query.source "139.144.30.25").payload := by
  have labels : ∀ label ∈ ipv6Query.payload.q.qname, IsLabel label := by decide
  exact name_carried labels _ _ _ _

end SimpleCdn
