import Mathlib.Init

namespace SimpleCdn

/-- Brotli on bytes. Decompression undoes compression, and fails on other input. -/
structure Brotli where
  encode : ByteArray → ByteArray
  decode : ByteArray → Option ByteArray
  decode_encode : ∀ bytes, decode (encode bytes) = some bytes

namespace Brotli

def compress (brotli : Brotli) (content : String) : ByteArray := brotli.encode content.toUTF8

/-- `read_to_string` also fails on bytes that are no text; both failures panic. -/
def decompress (brotli : Brotli) (content : ByteArray) : Option String :=
  (brotli.decode content).bind String.fromUTF8?

theorem decompress_compress (brotli : Brotli) (content : String) :
    brotli.decompress (brotli.compress content) = some content := by
  rw [decompress, compress, brotli.decode_encode, Option.bind_some]
  simp only [String.toUTF8_eq_toByteArray, String.fromUTF8?, content.isValidUTF8, dif_pos]
  rfl

end Brotli

/-- What comes of one request to the origin: no response, or a response whose
body can be read or not. -/
inductive OriginAnswer
  | failure
  | response (status : Nat) (body : Option String)
  deriving DecidableEq

def isServerError (status : Nat) : Prop := 500 ≤ status ∧ status < 600

def isSuccess (status : Nat) : Prop := 200 ≤ status ∧ status < 300

instance (status : Nat) : Decidable (isServerError status) := inferInstanceAs (Decidable (_ ∧ _))

instance (status : Nat) : Decidable (isSuccess status) := inferInstanceAs (Decidable (_ ∧ _))

inductive Fetched
  | retry
  | content (text : String)
  | panicked

/-- One turn of the loop in `fetch_from_origin`. Whether it is the first request
or a repeated one, a failure panics. -/
def fetchFromOrigin : OriginAnswer → Fetched
  | .failure => .panicked
  | .response status body =>
    if isServerError status then .retry
    else
      match body with
      | some text => .content text
      | none => .panicked

theorem fetchFromOrigin_content {answer : OriginAnswer} {text : String}
    (fetched : fetchFromOrigin answer = .content text) :
    ∃ status, ¬ isServerError status ∧ answer = .response status (some text) := by
  cases answer with
  | failure => cases fetched
  | response status body =>
    by_cases serverError : isServerError status
    · simp [fetchFromOrigin, serverError] at fetched
    · cases body with
      | none => simp [fetchFromOrigin, serverError] at fetched
      | some content =>
        simp only [fetchFromOrigin, serverError, if_false, Fetched.content.injEq] at fetched
        subst fetched
        exact ⟨status, serverError, rfl⟩

end SimpleCdn
