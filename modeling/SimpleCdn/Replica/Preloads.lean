import SimpleCdn.Replica.Alone
import SimpleCdn.Replica.Pages

namespace SimpleCdn

/-- The cache as a preload is meant to leave it: every listed path with its
page, everything else as before. -/
structure Preloaded (brotli : Brotli) (page : String → String) (initial : String → Option ByteArray)
    (listed : String → Prop) (cache : String → Option ByteArray) : Prop where
  stored : ∀ path, listed path → cache path = some (brotli.compress (page path))
  kept : ∀ path, ¬ listed path → cache path = initial path

theorem Preloaded.unique {brotli : Brotli} {page : String → String}
    {initial cache other : String → Option ByteArray}
    {listed : String → Prop} (preloaded : Preloaded brotli page initial listed cache)
    (again : Preloaded brotli page initial listed other ∨ Preloaded brotli page cache listed other) :
    other = cache := by
  funext path
  by_cases member : listed path
  · rw [preloaded.stored path member]
    rcases again with fresh | repeated
    · exact fresh.stored path member
    · exact repeated.stored path member
  · rcases again with fresh | repeated
    · rw [preloaded.kept path member, fresh.kept path member]
    · exact repeated.kept path member

/-- The path stands between the semicolons of some request to preload. -/
def Listed {ι : Type} (requests : ι → ReplicaRequest) (path : String) : Prop :=
  ∃ i body, requests i = .preload body ∧ path ≠ "" ∧ path ∈ splitOnChar ';' body

theorem mem_preloadPaths {body path : String} :
    path ∈ preloadPaths body ↔ path ≠ "" ∧ path ∈ splitOnChar ';' body := by
  rw [preloadPaths, List.mem_filter, decide_eq_true_iff, and_comm]

theorem listed_iff {ι : Type} {requests : ι → ReplicaRequest} {path : String} :
    Listed requests path ↔ ∃ i, path ∈ (requests i).listed := by
  constructor
  · rintro ⟨i, body, own, token⟩
    refine ⟨i, ?_⟩
    rw [own]
    exact mem_preloadPaths.mpr token
  · rintro ⟨i, member⟩
    cases own : requests i with
    | preload body =>
      rw [own] at member
      exact ⟨i, body, own, mem_preloadPaths.mp member⟩
    | proxy path =>
      rw [own] at member
      cases member

section Runs
variable {ι : Type} [DecidableEq ι] {brotli : Brotli} {disk initial : String → Option ByteArray}
  {requests : ι → ReplicaRequest} {p : Pool ι Replica ReplicaTask}

theorem ended_preloaded {page : String → String}
    (reach : Pool.Reach (replicaStep brotli disk) Pool.Free (warmPool initial requests) p)
    (succeeds : OriginGives (fun path => some (page path)) p.shared.answered)
    (ended : ∀ i, (p.task i).Ended) : Preloaded brotli page initial (Listed requests) p.shared.ramCache := by
  obtain ⟨warmed, progress⟩ := reach_warmed reach succeeds
  have whole : ∀ paths, fetchedPaths (fun path => some (page path)) paths = paths :=
    fun paths => fetchedPaths_eq (List.append_nil paths).symm (fun _ _ => rfl) (fun path member => by cases member)
  constructor
  · intro path listed
    obtain ⟨i, member⟩ := listed_iff.mp listed
    rw [← whole (requests i).listed] at member
    obtain ⟨text, comes, cached⟩ := (progress i).ended (ended i) path member
    rw [cached, ← Option.some.inj comes]
  · intro path unlisted
    rcases warmed path with old | ⟨⟨i, inside⟩, _⟩
    · exact old
    · rw [whole] at inside
      exact absurd (listed_iff.mpr ⟨i, inside⟩) unlisted

/-- When all tasks have ended, the cache is the one that the listed paths
determine, and neither another run for the same paths nor a repeated one can
leave any other. -/
theorem preload_complete (page : String → String)
    (reach : Pool.Reach (replicaStep brotli disk) Pool.Free (warmPool initial requests) p)
    (succeeds : OriginGives (fun path => some (page path)) p.shared.answered)
    (ended : ∀ i, (p.task i).Ended) :
    Preloaded brotli page initial (Listed requests) p.shared.ramCache ∧
      ∀ cache, (Preloaded brotli page initial (Listed requests) cache ∨
        Preloaded brotli page p.shared.ramCache (Listed requests) cache) → cache = p.shared.ramCache := by
  have preloaded := ended_preloaded reach succeeds ended
  exact ⟨preloaded, fun cache => preloaded.unique⟩

/-- Among requests for pages, one preload caches the listed pages that can be
fetched just when each of them comes before the first that cannot, or was
cached already. -/
theorem preload_survives_iff (outcome : String → Option String) {i : ι} {body : String}
    (own : requests i = .preload body) (others : ∀ j, j ≠ i → ∃ path, requests j = .proxy path)
    (reach : Pool.Reach (replicaStep brotli disk) Pool.Free (warmPool initial requests) p)
    (gives : OriginGives outcome p.shared.answered) (ended : (p.task i).Ended) :
    (∀ path ∈ preloadPaths body, ∀ text, outcome path = some text →
        p.shared.ramCache path = some (brotli.compress text)) ↔
      ∀ path ∈ preloadPaths body, ∀ text, outcome path = some text →
        path ∈ fetchedPaths outcome (preloadPaths body) ∨ initial path = some (brotli.compress text) := by
  obtain ⟨warmed, progress⟩ := reach_warmed reach gives
  constructor
  · intro all path member text comes
    rcases warmed path with old | ⟨⟨j, inside⟩, _⟩
    · rw [← old]
      exact Or.inr (all path member text comes)
    · by_cases this : j = i
      · rw [this, own] at inside
        exact Or.inl inside
      · obtain ⟨asked, isProxy⟩ := others j this
        rw [isProxy] at inside
        cases inside
  · intro front path member text comes
    have fetched : path ∈ fetchedPaths outcome (requests i).listed →
        p.shared.ramCache path = some (brotli.compress text) := by
      intro inside
      obtain ⟨text', comes', cached⟩ := (progress i).ended ended path inside
      rw [comes] at comes'
      rw [cached, Option.some.inj comes']
    rw [own] at fetched
    rcases front path member text comes with inside | already
    · exact fetched inside
    · rcases warmed path with old | ⟨⟨j, inside⟩, warm⟩
      · rw [old, already]
      · obtain ⟨text', comes', cached⟩ := warm
        rw [comes] at comes'
        rw [cached, Option.some.inj comes']

end Runs

/-- An origin with one page for every path. -/
def steadyOrigin (page : String → String) (path : String) : OriginAnswer := .response 200 (some (page path))

theorem preload_complete_repeated_path : ∃ p, Pool.Reach (replicaStep storing fun _ => none) Pool.Free
      (warmPool (fun _ => none) fun _ : Unit => ReplicaRequest.preload "a.html;;b.html;a.html") p ∧
    Preloaded storing (fun path => path) (fun _ => none)
      (Listed fun _ : Unit => ReplicaRequest.preload "a.html;;b.html;a.html") p.shared.ramCache := by
  have fetched : ∀ path ∈ preloadPaths "a.html;;b.html;a.html",
      fetchFromOrigin (steadyOrigin (fun path => path) path) = .content path := fun _ _ => rfl
  obtain ⟨p, reach, ended, _, gives⟩ := preload_run storing (fun _ => none) "a.html;;b.html;a.html"
    (fun _ => none) fetched
  exact ⟨p, reach, (preload_complete (fun path => path) reach gives ended).1⟩

/-- The origin cannot be reached for the first page of a list. -/
def firstFails (path : String) : Option String := if path = "a.html" then none else some path

theorem first_fails_run : ∃ p, Pool.Reach (replicaStep storing fun _ => none) Pool.Free
      (warmPool (fun _ => none) fun _ : Unit => ReplicaRequest.preload "a.html;b.html") p ∧
    OriginGives firstFails p.shared.answered ∧ (p.task ()).Ended ∧ p.shared.ramCache "b.html" = none := by
  have listed : preloadPaths "a.html;b.html" = ["a.html", "b.html"] := by decide
  have start : Pool.Alone (answeredStep storing (fun _ => none) fun _ => .failure)
      (⟨fun _ => none, RwLock.free, []⟩, .preload ⟨["a.html", "b.html"], .next⟩)
      (⟨fun _ => none, RwLock.free, []⟩, .preload ⟨["b.html"], .fetching "a.html"⟩) := .single rfl
  have reach := Pool.Alone.reach (p := warmPool (fun _ => none) fun _ : Unit =>
    ReplicaRequest.preload "a.html;b.html")
    (i := ()) (start.tail rfl) (by simp only [warmPool, ReplicaRequest.task, preload, listed])
  refine ⟨_, reach.mono fun _ _ _ _ taken => answeredStep_sound taken, fun path answer member => ?_, ?_, rfl⟩
  · cases List.mem_singleton.mp member
    exact Or.inr rfl
  · rw [Pool.advance_self]
    trivial

theorem preload_survives_first_failing : ∃ p, Pool.Reach (replicaStep storing fun _ => none) Pool.Free
      (warmPool (fun _ => none) fun _ : Unit => ReplicaRequest.preload "a.html;b.html") p ∧
    ((∀ path ∈ preloadPaths "a.html;b.html", ∀ text, firstFails path = some text →
        p.shared.ramCache path = some (storing.compress text)) ↔
      ∀ path ∈ preloadPaths "a.html;b.html", ∀ text, firstFails path = some text →
        path ∈ fetchedPaths firstFails (preloadPaths "a.html;b.html") ∨ none = some (storing.compress text)) := by
  obtain ⟨p, reach, gives, ended, _⟩ := first_fails_run
  exact ⟨p, reach, preload_survives_iff firstFails rfl (fun j other => absurd rfl other) reach gives ended⟩

/-- The second page is not cached, although the origin would have sent it. -/
theorem later_page_dropped : ∃ p, Pool.Reach (replicaStep storing fun _ => none) Pool.Free
      (warmPool (fun _ => none) fun _ : Unit => ReplicaRequest.preload "a.html;b.html") p ∧
    OriginGives firstFails p.shared.answered ∧ (p.task ()).Ended ∧
    ¬ ∀ path ∈ preloadPaths "a.html;b.html", ∀ text, firstFails path = some text →
      p.shared.ramCache path = some (storing.compress text) := by
  obtain ⟨p, reach, gives, ended, missing⟩ := first_fails_run
  refine ⟨p, reach, gives, ended, fun all => ?_⟩
  have cached := all "b.html" (by decide) "b.html" (by decide)
  rw [missing] at cached
  cases cached

end SimpleCdn
