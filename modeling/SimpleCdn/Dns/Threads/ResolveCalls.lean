import SimpleCdn.Dns.Threads.UpdateCalls

namespace SimpleCdn

/-- A dictionary iterator. It remembers the size that the dictionary had when
the iteration began. -/
structure Iterator where
  table : Nat
  used : Nat
  position : Nat
  deriving DecidableEq

/-- Where a call of `resolve` is. A client that is not in the table takes the
other branch, which reads the table no further; the calls of `update_latency`
that this branch makes are calls of their own. -/
inductive ResolvePc
  | test
  | fallback
  | table (access : ClientAccess)
  | advance (iterator : Iterator) (best : Option (Key × ℚ))
  | sum (iterator : Iterator) (best : Option (Key × ℚ)) (replica : Key) (item : ItemAccess)
  | samples (iterator : Iterator) (best : Option (Key × ℚ)) (replica : Key) (sum : ℚ) (item : ItemAccess)
  | returned (replica : Key)
  | raised (exception : PyError)
  deriving DecidableEq

structure ResolveCall where
  client : Key
  pc : ResolvePc
  deriving DecidableEq

/-- The comparison of `min`: the first of equal keys is kept. -/
def better (replica : Key) (value : ℚ) : Option (Key × ℚ) → Key × ℚ
  | none => (replica, value)
  | some best => if value < best.2 then (replica, value) else best

/-- One call of `next` on the iterator, inside `min`. -/
def Iterator.next (heap : Heap) (iterator : Iterator) (best : Option (Key × ℚ)) : ResolvePc :=
  if (heap.tables iterator.table).size ≠ iterator.used then .raised .runtimeError
  else
    match (heap.tables iterator.table).keys[iterator.position]? with
    | some replica =>
      .sum { iterator with position := iterator.position + 1 } best replica (.client .lookup)
    | none =>
      match best with
      | some (replica, _) => .returned replica
      | none => .raised .valueError

def ResolveCall.step (heap : Heap) (call : ResolveCall) : Option (Heap × ResolveCall) :=
  match call.pc with
  | .test =>
    some (heap, { call with pc := if call.client ∈ heap.outer then .table .lookup else .fallback })
  | .table (.found table) =>
    some (heap, { call with pc := .advance ⟨table, (heap.tables table).size, 0⟩ none })
  | .table access =>
    let next := access.step heap call.client
    some (next.1, { call with pc := .table next.2 })
  | .advance iterator best => some (heap, { call with pc := iterator.next heap best })
  | .sum iterator best replica (.found e) =>
    some (heap, { call with pc := .samples iterator best replica (heap.entries e).sum (.client .lookup) })
  | .sum iterator best replica item =>
    let next := item.step heap call.client replica
    some (next.1, { call with pc := .sum iterator best replica next.2 })
  | .samples iterator best replica sum (.found e) =>
    some (heap, { call with
      pc :=
        if (heap.entries e).samples = 0 then .raised .zeroDivisionError
        else .advance iterator (better replica (sum / (heap.entries e).samples) best) })
  | .samples iterator best replica sum item =>
    let next := item.step heap call.client replica
    some (next.1, { call with pc := .samples iterator best replica sum next.2 })
  | .fallback => none
  | .returned _ => none
  | .raised _ => none

namespace ResolveCall

/-- Between the test that found the client and the end of the call. -/
def Reading (call : ResolveCall) : Prop :=
  match call.pc with
  | .table _ => True
  | .advance _ _ => True
  | .sum _ _ _ _ => True
  | .samples _ _ _ _ _ => True
  | _ => False

instance (call : ResolveCall) : Decidable call.Reading := by
  unfold Reading
  split <;> infer_instance

def effect (call : ResolveCall) : Effect :=
  match call.pc with
  | .table .insert => .newTable
  | .sum _ _ _ item => item.effect
  | .samples _ _ _ _ item => item.effect
  | _ => .quiet

end ResolveCall

/-- A thread of the DNS server, in one of its two functions that touch the table. -/
inductive ServerCall
  | update (call : UpdateCall)
  | resolve (call : ResolveCall)
  deriving DecidableEq

namespace ServerCall

def step (heap : Heap) : ServerCall → Option (Heap × ServerCall)
  | .update call => (call.step heap).map fun next => (next.1, .update next.2)
  | .resolve call => (call.step heap).map fun next => (next.1, .resolve next.2)

def client : ServerCall → Key
  | .update call => call.record.client
  | .resolve call => call.client

def effect : ServerCall → Effect
  | .update call => call.effect
  | .resolve call => call.effect

/-- The call is an answer that ended in an exception. -/
def Failed : ServerCall → Prop
  | .resolve ⟨_, .raised _⟩ => True
  | _ => False

end ServerCall

end SimpleCdn
