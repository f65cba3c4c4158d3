import SimpleCdn.Replica.Provenance

namespace SimpleCdn

section Pages
variable {ι : Type} [DecidableEq ι] {brotli : Brotli} {disk : String → Option ByteArray}
  {requests : ι → ReplicaRequest} {p : Pool ι Replica ReplicaTask}

/-- Where the origin has one text for each path, every reply and every cached
entry is the text of its path, wherever it was taken from. -/
theorem proxy_transparent (page : String → String)
    (stored : ∀ path compressed, disk path = some compressed → brotli.decompress compressed = some (page path))
    (reach : Pool.Reach (replicaStep brotli disk) Pool.Free (replicaPool [] requests) p)
    (fixed : ∀ path status text, (path, OriginAnswer.response status (some text)) ∈ p.shared.answered →
      isServerError status ∨ text = page path) :
    (∀ i path response, p.task i = .proxy ⟨path, .replied response⟩ → response = html (page path)) ∧
      ∀ path compressed, p.shared.ramCache path = some compressed →
        brotli.decompress compressed = some (page path) := by
  obtain ⟨⟨cached, _⟩, tasks⟩ := reach_traced reach
  have heard : ∀ path text, FromOrigin p.shared.answered path text → text = page path := by
    rintro path text ⟨status, noError, member⟩
    exact (fixed path status text member).resolve_left noError
  constructor
  · intro i path ⟨status, text⟩ replied
    have traced := tasks i
    rw [replied] at traced
    obtain ⟨ok, fromOrigin | ⟨compressed, inFile, read⟩⟩ := traced
    · have same : text = page path := heard path text fromOrigin
      have always : status = 200 := ok
      rw [html, always, same]
    · have same : some text = some (page path) := read.symm.trans (stored path compressed inFile)
      have always : status = 200 := ok
      rw [html, always, Option.some.inj same]
  · intro path compressed found
    obtain ⟨text, rfl, fromOrigin⟩ := cached path compressed found
    rw [brotli.decompress_compress, heard path text fromOrigin]

/-- The origin has answered a request for the path with this page, and the
status says that it is one. -/
def IsPage (answered : List (String × OriginAnswer)) (path page : String) : Prop :=
  ∃ status, isSuccess status ∧ (path, OriginAnswer.response status (some page)) ∈ answered

/-- Only pages are cached, and only pages are sent as pages. -/
structure OnlyPages (brotli : Brotli) (p : Pool ι Replica ReplicaTask) : Prop where
  cached : ∀ path compressed, p.shared.ramCache path = some compressed →
    ∃ page, brotli.decompress compressed = some page ∧ IsPage p.shared.answered path page
  replied : ∀ i path response, p.task i = .proxy ⟨path, .replied response⟩ → response.status = 200 →
    IsPage p.shared.answered path response.text

/-- While every text that the origin sends comes as a page or as a server
error, nothing else is cached or sent. -/
theorem only_pages_served {earlier : List (String × OriginAnswer)}
    (stored : ∀ path compressed, disk path = some compressed →
      ∃ page, brotli.decompress compressed = some page ∧ IsPage earlier path page)
    (reach : Pool.Reach (replicaStep brotli disk) Pool.Free (replicaPool earlier requests) p)
    (clean : ∀ path status text, (path, OriginAnswer.response status (some text)) ∈ p.shared.answered →
      isSuccess status ∨ isServerError status) : OnlyPages brotli p := by
  obtain ⟨⟨cached, old⟩, tasks⟩ := reach_traced reach
  have heard : ∀ path text, FromOrigin p.shared.answered path text → IsPage p.shared.answered path text := by
    rintro path text ⟨status, noError, member⟩
    exact ⟨status, (clean path status text member).resolve_right noError, member⟩
  constructor
  · intro path compressed found
    obtain ⟨text, rfl, fromOrigin⟩ := cached path compressed found
    exact ⟨text, brotli.decompress_compress text, heard path text fromOrigin⟩
  · intro i path response replied _
    have traced := tasks i
    rw [replied] at traced
    obtain ⟨_, fromOrigin | ⟨compressed, inFile, read⟩⟩ := traced
    · exact heard path response.text fromOrigin
    · obtain ⟨page, same, status, success, member⟩ := stored path compressed inFile
      have text : page = response.text := Option.some.inj (same.symm.trans read)
      rw [← text]
      exact ⟨status, success, old member⟩

end Pages

/-- Brotli may store bytes as they are. -/
def storing : Brotli where
  encode bytes := bytes
  decode bytes := some bytes
  decode_encode _ := rfl

def pageOf (path : String) : String := "<html>" ++ path ++ "</html>"

/-- One of the pages is on the disk. -/
def onDisk (path : String) : Option ByteArray :=
  if path = "b.html" then some (storing.compress (pageOf path)) else none

def visits : Fin 4 → ReplicaRequest
  | 0 => .preload "a.html"
  | 1 => .proxy "a.html"
  | 2 => .proxy "b.html"
  | 3 => .proxy "c.html"

/-- A run in which the origin is busy at first. The three pages come from the
cache, from the disk and from the origin. -/
theorem visits_run (earlier : List (String × OriginAnswer)) :
    ∃ p, Pool.Reach (replicaStep storing onDisk) Pool.Free (replicaPool earlier visits) p ∧
      p.shared.answered =
        [("c.html", .response 200 (some (pageOf "c.html"))), ("c.html", .response 503 (some "busy")),
          ("a.html", .response 200 (some (pageOf "a.html"))), ("a.html", .response 503 (some "busy"))] ++ earlier ∧
      p.shared.ramCache "a.html" = some (storing.compress (pageOf "a.html")) ∧
      p.task 1 = .proxy ⟨"a.html", .replied (html (pageOf "a.html"))⟩ ∧
      p.task 2 = .proxy ⟨"b.html", .replied (html (pageOf "b.html"))⟩ ∧
      p.task 3 = .proxy ⟨"c.html", .replied (html (pageOf "c.html"))⟩ := by
  have listed : preloadPaths "a.html" = ["a.html"] := by decide
  let busy : Surroundings := ⟨.response 503 (some "busy"), true⟩
  let gives (path : String) : Surroundings := ⟨.response 200 (some (pageOf path)), true⟩
  have asked : Pool.Reach (replicaStep storing onDisk) Pool.Free (replicaPool earlier visits) _ :=
    Pool.Reach.start.next (i := 0) trivial ⟨busy, by
      simp only [replicaPool, visits, ReplicaRequest.task, preload, listed, ReplicaTask.step, PreloadTask.step]
      rfl⟩
  have refused := asked.next (i := 0) trivial ⟨busy, rfl⟩
  have fetched := refused.next (i := 0) trivial ⟨gives "a.html", rfl⟩
  have compressed := fetched.next (i := 0) trivial ⟨busy, rfl⟩
  have queued := compressed.next (i := 0) trivial ⟨busy, rfl⟩
  -- while the writer waits, nobody can read the cache
  have locked := queued.next (i := 2) trivial ⟨busy, rfl⟩
  have opened := locked.next (i := 2) trivial ⟨busy, rfl⟩
  have fromDisk := opened.next (i := 2) trivial ⟨busy, by
    simp only [Pool.advance_self, ReplicaTask.step, ProxyTask.step, storing.decompress_compress]
    rfl⟩
  have writing := fromDisk.next (i := 0) trivial ⟨busy, rfl⟩
  have inserted := writing.next (i := 0) trivial ⟨busy, rfl⟩
  have read := inserted.next (i := 1) trivial ⟨busy, rfl⟩
  have hit := read.next (i := 1) trivial ⟨busy, rfl⟩
  have fromCache := hit.next (i := 1) trivial ⟨busy, by
    simp only [Pool.advance_self, ReplicaTask.step, ProxyTask.step, storing.decompress_compress]
    rfl⟩
  have read' := fromCache.next (i := 3) trivial ⟨busy, rfl⟩
  have missed := read'.next (i := 3) trivial ⟨busy, rfl⟩
  have noFile := missed.next (i := 3) trivial ⟨busy, rfl⟩
  have refused' := noFile.next (i := 3) trivial ⟨busy, rfl⟩
  have fromOrigin := refused'.next (i := 3) trivial ⟨gives "c.html", rfl⟩
  exact ⟨_, fromOrigin, rfl, rfl, rfl, rfl, rfl⟩

theorem proxy_transparent_visits :
    ∃ p, Pool.Reach (replicaStep storing onDisk) Pool.Free (replicaPool [] visits) p ∧
      p.task 1 = .proxy ⟨"a.html", .replied (html (pageOf "a.html"))⟩ ∧
      p.task 2 = .proxy ⟨"b.html", .replied (html (pageOf "b.html"))⟩ ∧
      p.task 3 = .proxy ⟨"c.html", .replied (html (pageOf "c.html"))⟩ ∧
      (∀ i path response, p.task i = .proxy ⟨path, .replied response⟩ → response = html (pageOf path)) ∧
      ∀ path compressed, p.shared.ramCache path = some compressed →
        storing.decompress compressed = some (pageOf path) := by
  obtain ⟨p, reach, answered, _, fromCache, fromDisk, fromOrigin⟩ := visits_run []
  refine ⟨p, reach, fromCache, fromDisk, fromOrigin, proxy_transparent pageOf ?_ reach ?_⟩
  · intro path compressed stored
    unfold onDisk at stored
    split at stored <;> cases stored
    exact storing.decompress_compress (pageOf path)
  · intro path status text member
    rw [answered] at member
    simp only [List.append_nil, List.mem_cons, List.not_mem_nil, or_false] at member
    rcases member with same | same | same | same <;> cases same <;> simp [isServerError]

theorem only_pages_served_visits :
    ∃ p, Pool.Reach (replicaStep storing onDisk) Pool.Free
        (replicaPool [("b.html", .response 200 (some (pageOf "b.html")))] visits) p ∧
      p.shared.ramCache "a.html" = some (storing.compress (pageOf "a.html")) ∧
      p.task 1 = .proxy ⟨"a.html", .replied (html (pageOf "a.html"))⟩ ∧
      p.task 2 = .proxy ⟨"b.html", .replied (html (pageOf "b.html"))⟩ ∧
      p.task 3 = .proxy ⟨"c.html", .replied (html (pageOf "c.html"))⟩ ∧ OnlyPages storing p := by
  obtain ⟨p, reach, answered, cached, fromCache, fromDisk, fromOrigin⟩ :=
    visits_run [("b.html", .response 200 (some (pageOf "b.html")))]
  refine ⟨p, reach, cached, fromCache, fromDisk, fromOrigin, only_pages_served ?_ reach ?_⟩
  · intro path compressed stored
    unfold onDisk at stored
    split at stored <;> cases stored
    rename_i here
    subst here
    exact ⟨_, storing.decompress_compress (pageOf "b.html"), 200, by decide, List.mem_cons_self ..⟩
  · intro path status text member
    rw [answered] at member
    simp only [List.cons_append, List.nil_append, List.mem_cons, List.not_mem_nil, or_false] at member
    rcases member with same | same | same | same | same <;> cases same <;> simp [isServerError, isSuccess]

/-- One request for a page that is neither cached nor on the disk. The reply is
the text of the origin's answer, whatever the status was. -/
theorem proxy_run (path text : String) {status : Nat} (noError : ¬ isServerError status) :
    ∃ p, Pool.Reach (replicaStep storing fun _ => none) Pool.Free
        (replicaPool [] fun _ : Unit => ReplicaRequest.proxy path) p ∧
      p.task () = .proxy ⟨path, .replied (html text)⟩ ∧
      p.shared.answered = [(path, .response status (some text))] := by
  let heard : Surroundings := ⟨.response status (some text), false⟩
  have content : fetchFromOrigin heard.answer = .content text := by
    rw [fetchFromOrigin, if_neg noError]
  have asked : Pool.Reach (replicaStep storing fun _ => none) Pool.Free
      (replicaPool [] fun _ : Unit => ReplicaRequest.proxy path) _ := .start
  have locked := asked.next (i := ()) trivial ⟨heard, rfl⟩
  have missed := locked.next (i := ()) trivial ⟨heard, rfl⟩
  have noFile := missed.next (i := ()) trivial ⟨heard, rfl⟩
  have replied := noFile.next (i := ()) trivial ⟨heard, rfl⟩
  refine ⟨_, replied, ?_, rfl⟩
  rw [Pool.advance_self]
  simp only [content]
  rfl

/-- The origin has no such page, and its error page is sent as one. -/
theorem error_page_served :
    ∃ p, Pool.Reach (replicaStep storing fun _ => none) Pool.Free
        (replicaPool [] fun _ : Unit => ReplicaRequest.proxy "missing.html") p ∧ ¬ OnlyPages storing p := by
  have noError : ¬ isServerError 404 := by decide
  obtain ⟨p, reach, replied, answered⟩ := proxy_run "missing.html" "404 page not found" noError
  refine ⟨p, reach, fun onlyPages => ?_⟩
  obtain ⟨status, success, member⟩ := onlyPages.replied () "missing.html" _ replied rfl
  rw [answered] at member
  cases List.mem_singleton.mp member
  exact absurd success (by decide)

end SimpleCdn
