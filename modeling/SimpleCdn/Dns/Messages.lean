import SimpleCdn.Wire
import SimpleCdn.Lib.Text
import Mathlib.Data.List.DropRight

namespace SimpleCdn

/-- A domain name as its labels. The root has none. -/
abbrev DomainName := List String

structure DnsHeader where
  id : Nat
  qr : Bool
  opcode : Nat
  aa : Bool
  tc : Bool
  rd : Bool
  ra : Bool
  rcode : Nat
  deriving DecidableEq

/-- The header that the library makes of the fields not given to it. -/
def DnsHeader.default (id : Nat) : DnsHeader where
  id := id
  qr := false
  opcode := 0
  aa := false
  tc := false
  rd := true
  ra := false
  rcode := 0

structure DnsQuestion where
  qname : DomainName
  qtype : Nat
  qclass : Nat
  deriving DecidableEq

/-- The numbers of the record type `A` and of the class `IN`. -/
def typeA : Nat := 1

def classIn : Nat := 1

structure ResourceRecord where
  rname : DomainName
  rtype : Nat
  rclass : Nat
  ttl : Nat
  rdata : String
  deriving DecidableEq

structure DnsMessage where
  header : DnsHeader
  questions : List DnsQuestion
  answers : List ResourceRecord
  deriving DecidableEq

/-- The question `q` of a message: its first, or the library's default one. -/
def DnsMessage.q (message : DnsMessage) : DnsQuestion :=
  message.questions.headD ⟨[], typeA, classIn⟩

/-- The texts by which the library shows classes and types. -/
structure Mnemonics where
  classText : Nat → String
  typeText : Nat → String

/-- A name ends in a dot, also that of the root. -/
def nameText (name : DomainName) : String :=
  if name = [] then "." else String.join (name.map (·.push '.'))

def padRight (width : Nat) (text : String) : String :=
  text ++ String.ofList (List.replicate (width - text.length) ' ')

/-- `str` of a question. -/
def questionText (mnemonics : Mnemonics) (question : DnsQuestion) : String :=
  ";" ++ padRight 30 (nameText question.qname) ++ " " ++ padRight 7 (mnemonics.classText question.qclass) ++
    " " ++ mnemonics.typeText question.qtype

/-- `split()[0][1:-1]`. A question's text starts with a semicolon, so there is
a first word. -/
def questionName (text : String) : String :=
  String.ofList ((pythonSplit text).headD "").toList.tail.dropLast

/-- The labels of a name given as text. Trailing dots do not count. -/
def readName (text : String) : DomainName :=
  if text = "" ∨ text = "." then []
  else splitOnChar '.' (String.ofList (text.toList.rdropWhile (· = '.')))

structure Datagram where
  payload : DnsMessage
  source : Address
  destination : Address
  deriving DecidableEq

/-- The reply that is sent through a socket for a message from an address, with
the address that `resolve` returned. The header of the message is read for its
identifier only. -/
def processRequest (mnemonics : Mnemonics) (udpSock : Address) (query : DnsMessage) (address : Address)
    (resolved : String) : Datagram :=
  let question := questionName (questionText mnemonics query.q)
  { payload :=
      { header := { DnsHeader.default query.header.id with qr := true, aa := false, ra := true }
        questions := [⟨readName question, typeA, classIn⟩]
        answers := [⟨readName question, typeA, classIn, 600, resolved⟩] }
    source := udpSock
    destination := address }

end SimpleCdn
