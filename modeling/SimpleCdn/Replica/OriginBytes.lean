import SimpleCdn.Lib.Utf8
import SimpleCdn.Replica.Alone
import SimpleCdn.Replica.Pages

namespace SimpleCdn

def byteOrderMark : ByteArray := ⟨#[0xEF, 0xBB, 0xBF]⟩

/-- `Response::text` of a body that is declared as UTF-8 or without a charset. -/
def responseText (bytes : ByteArray) : String :=
  fromUtf8Lossy (if (bytes.extract 0 3).data = byteOrderMark.data then bytes.extract 3 bytes.size else bytes)

/-- The origin has answered with these bytes. -/
def originBytes (bytes : ByteArray) : OriginAnswer := .response 200 (some (responseText bytes))

theorem byteOrderMark_eq : byteOrderMark = [Char.ofNat 0xFEFF].utf8Encode := by decide

/-- A body is read without loss just when it is UTF-8 and has no mark to drop. -/
theorem toUTF8_responseText_iff (bytes : ByteArray) :
    (responseText bytes).toUTF8 = bytes ↔ bytes.IsValidUTF8 ∧ bytes.extract 0 3 ≠ byteOrderMark := by
  by_cases marked : bytes.extract 0 3 = byteOrderMark
  · have split : byteOrderMark ++ bytes.extract 3 bytes.size = bytes := by
      rw [← marked, ByteArray.extract_append_extract]
      simp
    rw [responseText, if_pos (congrArg ByteArray.data marked)]
    constructor
    · intro same
      have valid : bytes.IsValidUTF8 := by
        rw [← same, String.toUTF8_eq_toByteArray]
        exact String.isValidUTF8 _
      rw [← split, byteOrderMark_eq, ByteArray.isValidUTF8_utf8Encode_singleton_append_iff] at valid
      have shorter := same.symm.trans ((toUTF8_fromUtf8Lossy_iff _).mpr valid)
      have sizes := congrArg ByteArray.size split
      rw [ByteArray.size_append, ← shorter] at sizes
      have long : byteOrderMark.size = 3 := rfl
      omega
    · exact fun both => absurd marked both.2
  · rw [responseText, if_neg fun same => marked (ByteArray.ext same), toUTF8_fromUtf8Lossy_iff]
    exact ⟨fun valid => ⟨valid, marked⟩, And.left⟩

/-- Whenever the origin's answers for a path are these bytes, every body that
is sent for it is, from the cache or not. -/
def DeliversBytes (bytes : ByteArray) : Prop :=
  ∀ (brotli : Brotli) (disk : String → Option ByteArray) (ι : Type) [DecidableEq ι]
    (requests : ι → ReplicaRequest)
    (p : Pool ι Replica ReplicaTask) (path : String), disk path = none →
    Pool.Reach (replicaStep brotli disk) Pool.Free (replicaPool [] requests) p →
    (∀ answer text, (path, answer) ∈ p.shared.answered → fetchFromOrigin answer = .content text →
      answer = originBytes bytes) →
    ∀ i response, p.task i = .proxy ⟨path, .replied response⟩ → response.text.toUTF8 = bytes

theorem DeliversBytes.read_back {bytes : ByteArray} (delivers : DeliversBytes bytes) :
    (responseText bytes).toUTF8 = bytes := by
  obtain ⟨text, read⟩ : ∃ text, text = responseText bytes := ⟨_, rfl⟩
  have noError : ¬ isServerError 200 := by decide
  obtain ⟨p, reach, replied, answered⟩ := proxy_run "index.html" text noError
  have only : ∀ answer heard, ("index.html", answer) ∈ p.shared.answered →
    fetchFromOrigin answer = .content heard →
      answer = originBytes bytes := by
    intro answer heard member _
    rw [answered] at member
    cases List.mem_singleton.mp member
    rw [originBytes, read]
  rw [← read]
  exact delivers storing (fun _ => none) Unit _ p "index.html" rfl reach only () _ replied

/-- The replica delivers the bytes of the origin just when they are UTF-8 and do
not begin with a byte order mark. -/
theorem delivers_bytes_iff (bytes : ByteArray) :
    DeliversBytes bytes ↔ bytes.IsValidUTF8 ∧ bytes.extract 0 3 ≠ byteOrderMark := by
  rw [← toUTF8_responseText_iff]
  constructor
  · exact fun delivers => delivers.read_back
  · intro lossless brotli disk ι _ requests p path noFile reach heard i response replied
    have traced := (reach_traced reach).2 i
    rw [replied] at traced
    obtain ⟨_, ⟨status, noError, member⟩ | ⟨compressed, inFile, _⟩⟩ := traced
    · have fetched : fetchFromOrigin (.response status (some response.text)) = .content response.text := by
        rw [fetchFromOrigin, if_neg noError]
      have same := heard _ _ member fetched
      simp only [originBytes, OriginAnswer.response.injEq, Option.some.injEq] at same
      rw [same.2]
      exact lossless
    · rw [noFile] at inFile
      cases inFile

/-- The first bytes of a picture. -/
def pngSignature : ByteArray := ⟨#[0x89, 0x50, 0x4E, 0x47, 0x0D, 0x0A, 0x1A, 0x0A]⟩

theorem picture_not_delivered : ¬ DeliversBytes pngSignature := by
  intro delivers
  have same := delivers.read_back
  revert same
  decide +kernel

end SimpleCdn
