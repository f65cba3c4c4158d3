import SimpleCdn.Dns.Messages

namespace SimpleCdn

/-- Datagrams between DNS servers and other hosts: those that came from
outside, those on their way, and those that servers have sent. -/
structure Network where
  injected : List Datagram
  inFlight : List Datagram
  sent : List Datagram

section Deliveries
variable (mnemonics : Mnemonics) (servers : Address → Prop) (injectable : Datagram → Prop)

/-- The runs of a network in any order of injections and deliveries. A server
handles what is addressed to it; any other host keeps it. -/
inductive Network.Reach : Network → Prop
  | start : Reach ⟨[], [], []⟩
  | inject {net} (d : Datagram) : Reach net → injectable d →
      Reach { net with injected := d :: net.injected, inFlight := d :: net.inFlight }
  | answer {net before d after} (resolved : String) : Reach net → net.inFlight = before ++ d :: after →
      servers d.destination →
      Reach { net with
        inFlight := processRequest mnemonics d.destination d.payload d.source resolved :: (before ++ after)
        sent := processRequest mnemonics d.destination d.payload d.source resolved :: net.sent }
  | keep {net before d after} : Reach net → net.inFlight = before ++ d :: after → ¬ servers d.destination →
      Reach { net with inFlight := before ++ after }

end Deliveries

section Loops
variable {mnemonics : Mnemonics} {servers : Address → Prop} {injectable : Datagram → Prop} {net : Network}

/-- Where no forged source is injected, what is on its way to a server does
not come from one. -/
theorem Network.Reach.source_outside
    (honest : ∀ d, injectable d → servers d.destination → ¬ servers d.source)
    (reach : Network.Reach mnemonics servers injectable net) :
    ∀ d ∈ net.inFlight, servers d.destination → ¬ servers d.source := by
  induction reach with
  | start =>
    intro d member
    cases member
  | inject d _ allowed ih =>
    intro other member
    rcases List.mem_cons.mp member with rfl | old
    · exact honest other allowed
    · exact ih other old
  | @answer net before d after resolved _ split toServer ih =>
    rw [split] at ih
    have outside := ih d (List.mem_append_right before (List.mem_cons_self ..)) toServer
    intro other member
    rcases List.mem_cons.mp member with rfl | old
    · exact fun back => absurd back outside
    · refine ih other ?_
      rcases List.mem_append.mp old with left | right
      · exact List.mem_append_left _ left
      · exact List.mem_append_right _ (List.mem_cons_of_mem d right)
  | @keep net before d after _ split _ ih =>
    rw [split] at ih
    intro other member
    refine ih other ?_
    rcases List.mem_append.mp member with left | right
    · exact List.mem_append_left _ left
    · exact List.mem_append_right _ (List.mem_cons_of_mem d right)

/-- Every datagram that a server has sent, and every one still on its way to a
server, is paid for by one that was injected. -/
theorem Network.Reach.sent_budget [DecidablePred servers]
    (honest : ∀ d, injectable d → servers d.destination → ¬ servers d.source)
    (reach : Network.Reach mnemonics servers injectable net) :
    net.sent.length + net.inFlight.countP (fun d => servers d.destination) ≤ net.injected.length := by
  induction reach with
  | start => simp
  | inject d _ _ ih =>
    have one : (d :: []).countP (fun d => servers d.destination) ≤ 1 := List.countP_le_length
    simp only [List.length_cons, List.countP_cons, List.countP_nil] at one ⊢
    omega
  | @answer net before d after resolved earlier split toServer ih =>
    have outside : ¬ servers d.source :=
      earlier.source_outside honest d (by simp [split]) toServer
    rw [split] at ih
    simp only [List.countP_append, List.countP_cons, decide_eq_true toServer, if_true] at ih
    have away : ¬ servers (processRequest mnemonics d.destination d.payload d.source resolved).destination :=
      outside
    simp only [List.length_cons, List.countP_cons, List.countP_append, decide_eq_false away]
    simp only [Bool.false_eq_true, if_false]
    omega
  | @keep net before d after _ split elsewhere ih =>
    rw [split] at ih
    simp only [List.countP_append, List.countP_cons, decide_eq_false elsewhere] at ih ⊢
    simp only [Bool.false_eq_true, if_false] at ih
    omega

variable (mnemonics servers injectable) in
/-- The servers send no more datagrams than were injected, whatever is injected
and in whatever order the datagrams arrive. -/
def NoReplyLoop : Prop :=
  ∀ net, Network.Reach mnemonics servers injectable net → net.sent.length ≤ net.injected.length

variable (mnemonics servers injectable) in
/-- Two deliveries of one forged datagram already exceed the budget. -/
theorem forged_source_loops {d : Datagram} (allowed : injectable d) (toServer : servers d.destination)
    (fromServer : servers d.source) :
    ∃ net, Network.Reach mnemonics servers injectable net ∧ net.injected.length < net.sent.length := by
  have injected : Network.Reach mnemonics servers injectable ⟨[d], [] ++ [d], []⟩ :=
    .inject d .start allowed
  have first := Network.Reach.answer "" injected rfl toServer
  have second := Network.Reach.answer "" first (List.nil_append _).symm fromServer
  exact ⟨_, second, Nat.one_lt_two⟩

/-- There is no reply loop just when no datagram is injected that goes to one
server and claims to come from one. -/
theorem no_reply_loop_iff (mnemonics : Mnemonics) (servers : Address → Prop) (injectable : Datagram → Prop) :
    NoReplyLoop mnemonics servers injectable ↔
      ∀ d, injectable d → servers d.destination → ¬ servers d.source := by
  constructor
  · intro bounded d allowed toServer fromServer
    obtain ⟨net, reach, more⟩ := forged_source_loops mnemonics servers injectable allowed toServer
      fromServer
    have most := bounded net reach
    omega
  · intro honest net reach
    classical
    have budget := reach.sent_budget honest
    omega

end Loops

/-- One response whose source is forged to be another server. -/
def forgedResponse : Datagram where
  payload := ⟨{ DnsHeader.default 7 with qr := true }, [⟨["cs5700cdn", "example", "com"], typeA, classIn⟩],
    []⟩
  source := ("10.0.0.2", 25015)
  destination := ("10.0.0.1", 25015)

def twoServers (address : Address) : Prop := address = ("10.0.0.1", 25015) ∨ address = ("10.0.0.2", 25015)

theorem forged_response_answered :
    ¬ NoReplyLoop ⟨fun _ => "IN", fun _ => "A"⟩ twoServers (fun d => d = forgedResponse) := by
  intro bounded
  obtain ⟨net, reach, more⟩ := forged_source_loops ⟨fun _ => "IN", fun _ => "A"⟩ twoServers
    (fun d => d = forgedResponse) rfl (Or.inl rfl) (Or.inr rfl)
  have most := bounded net reach
  omega

end SimpleCdn
