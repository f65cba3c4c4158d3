import SimpleCdn.Lib.Utf8
import SimpleCdn.Replica.Alone
import SimpleCdn.Replica.Pages
import Mathlib.Data.Bool.AllAny
import Mathlib.Data.List.TakeWhile

namespace SimpleCdn

/-- The path of a request target as it was received, without the slash that
it begins with. A question mark or a number sign would end it. -/
structure RequestPath where
  text : String
  plain : ∀ c ∈ text.toList, c ≠ '?' ∧ c ≠ '#'

structure HttpRequest where
  method : String
  path : RequestPath
  query : Option String
  body : ByteArray

/-- The handlers of the route table with what they are given. -/
inductive Route
  | proxy (path : String)
  | preload (body : String)
  | beacon
  | ping (ipList : String)
  deriving DecidableEq

namespace Routes

/-- `warp::path::end()` matches only the path of the root. -/
def root (request : HttpRequest) : Option Route :=
  if request.path.text = "" then some (.proxy "") else none

def preload (request : HttpRequest) : Option Route :=
  if request.path.text = "preload" then some (.preload (fromUtf8Lossy request.body)) else none

def beacon (request : HttpRequest) : Option Route :=
  if request.path.text = "grading/beacon" then some .beacon else none

def ping (request : HttpRequest) : Option Route :=
  if request.method = "POST" ∧ request.path.text = "ping" then some (.ping (fromUtf8Lossy request.body)) else none

/-- `warp::path!(String)` matches one segment that is not empty. -/
def proxy (request : HttpRequest) : Option Route :=
  if request.path.text ≠ "" ∧ '/' ∉ request.path.text.toList then some (.proxy request.path.text) else none

end Routes

/-- The routes are tried in order. None of them looks at the query. -/
def routes (request : HttpRequest) : Option Route :=
  Routes.root request <|> Routes.preload request <|> Routes.beacon request <|> Routes.ping request <|>
    Routes.proxy request

/-- The targets that are no pages. -/
def HttpRequest.IsControl (request : HttpRequest) : Prop :=
  request.path.text = "preload" ∨ request.path.text = "grading/beacon" ∨
    request.method = "POST" ∧ request.path.text = "ping"

/-- The requests that reach `proxy`, and what it is given. -/
theorem routes_proxy_iff {request : HttpRequest} (page : ¬ request.IsControl) {key : String} :
    routes request = some (.proxy key) ↔ key = request.path.text ∧ '/' ∉ request.path.text.toList := by
  unfold HttpRequest.IsControl at page
  push Not at page
  obtain ⟨notPreload, notBeacon, notPing⟩ := page
  have apart : ¬ (request.method = "POST" ∧ request.path.text = "ping") := fun both => notPing both.1 both.2
  by_cases root : request.path.text = ""
  · simp [routes, Routes.root, root, eq_comm]
  · simp only [routes, Routes.root, Routes.preload, Routes.beacon, Routes.ping, Routes.proxy, if_neg root,
      if_neg notPreload, if_neg notBeacon, if_neg apart]
    by_cases deep : '/' ∈ request.path.text.toList
    · simp [deep]
    · simp [root, deep, eq_comm]

/-- The URL that `fetch_from_origin` asks for. -/
def originUrl (origin path : String) : String := origin ++ "/" ++ path

/-- The URL that a task asks for in its next step, if it asks the origin. -/
def ReplicaTask.fetchUrl (origin : String) : ReplicaTask → Option String
  | .proxy ⟨path, .fetching⟩ => some (originUrl origin path)
  | .preload ⟨_, .fetching path⟩ => some (originUrl origin path)
  | _ => none

/-- What a URL names: an authority, and a path and a query on it. -/
structure UrlTarget where
  authority : String
  path : String
  query : Option String

/-- The parts of a URL by the generic syntax: behind the scheme the authority
ends at the first slash, the path at the first question mark, and the query at
the first number sign. -/
def UrlTarget.read (url : String) : Option UrlTarget :=
  match url.toList.dropWhile (· ≠ ':') with
  | ':' :: '/' :: '/' :: rest =>
    let hier := rest.takeWhile (· ≠ '#')
    let target := hier.dropWhile fun c => c ≠ '/' && c ≠ '?'
    some {
      authority := String.ofList (hier.takeWhile fun c => c ≠ '/' && c ≠ '?')
      path := String.ofList (target.takeWhile (· ≠ '?'))
      query := (target.dropWhile (· ≠ '?')).tail?.map String.ofList }
  | _ => none

/-- An origin server, and whether its base URL is written with a slash at the end. -/
structure Origin where
  scheme : String
  authority : String
  trailingSlash : Bool
  scheme_plain : ':' ∉ scheme.toList
  authority_plain : ∀ c ∈ authority.toList, c ≠ '/' ∧ c ≠ '?' ∧ c ≠ '#'

def Origin.base (origin : Origin) : String :=
  origin.scheme ++ "://" ++ origin.authority ++ if origin.trailingSlash then "/" else ""

/-- The parts of a URL without a fragment and a query. -/
theorem read_plain {scheme authority path : String} (schemePlain : ':' ∉ scheme.toList)
    (authorityPlain : ∀ c ∈ authority.toList, c ≠ '/' ∧ c ≠ '?' ∧ c ≠ '#')
    (pathPlain : ∀ c ∈ path.toList, c ≠ '?' ∧ c ≠ '#') :
    UrlTarget.read (scheme ++ "://" ++ authority ++ ("/" ++ path)) = some ⟨authority, "/" ++ path, none⟩ := by
  have inScheme : ∀ c ∈ scheme.toList, decide (c ≠ ':') = true :=
    fun c member => decide_eq_true fun same => schemePlain (same ▸ member)
  have inAuthority : ∀ c ∈ authority.toList, (c ≠ '/' && c ≠ '?') = true := by
    intro c member
    have plain := authorityPlain c member
    simp [plain.1, plain.2.1]
  have hier : ∀ c ∈ authority.toList ++ '/' :: path.toList, decide (c ≠ '#') = true := by
    intro c member
    rcases List.mem_append.mp member with left | right
    · exact decide_eq_true (authorityPlain c left).2.2
    · rcases List.mem_cons.mp right with rfl | inPath
      · decide
      · exact decide_eq_true (pathPlain c inPath).2
  have noQuery : ∀ c ∈ '/' :: path.toList, decide (c ≠ '?') = true := by
    intro c member
    rcases List.mem_cons.mp member with rfl | inPath
    · decide
    · exact decide_eq_true (pathPlain c inPath).1
  have url : (scheme ++ "://" ++ authority ++ ("/" ++ path)).toList =
      scheme.toList ++ ':' :: '/' :: '/' :: (authority.toList ++ '/' :: path.toList) := by
    simp
  have behindScheme : (scheme ++ "://" ++ authority ++ ("/" ++ path)).toList.dropWhile (· ≠ ':') =
      ':' :: '/' :: '/' :: (authority.toList ++ '/' :: path.toList) := by
    rw [url, List.dropWhile_append_of_pos inScheme]
    simp
  have whole : (authority.toList ++ '/' :: path.toList).takeWhile (· ≠ '#') =
      authority.toList ++ '/' :: path.toList :=
    List.takeWhile_eq_self_iff.mpr hier
  have front : (authority.toList ++ '/' :: path.toList).takeWhile (fun c => c ≠ '/' && c ≠ '?') =
      authority.toList := by
    rw [List.takeWhile_append_of_pos inAuthority]
    simp
  have target : (authority.toList ++ '/' :: path.toList).dropWhile (fun c => c ≠ '/' && c ≠ '?') =
      '/' :: path.toList := by
    rw [List.dropWhile_append_of_pos inAuthority]
    simp
  have noMark : ('/' :: path.toList).dropWhile (· ≠ '?') = [] := List.dropWhile_eq_nil_iff.mpr noQuery
  have allPath : ('/' :: path.toList).takeWhile (· ≠ '?') = '/' :: path.toList :=
    List.takeWhile_eq_self_iff.mpr noQuery
  have slash : String.ofList ('/' :: path.toList) = "/" ++ path := by
    rw [← String.toList_inj]
    simp
  simp only [UrlTarget.read, behindScheme, whole, front, target, noMark, allPath, String.ofList_toList, slash,
    List.tail?_nil, Option.map_none]

/-- A slash at the end of the base comes in front of the one that is added. -/
theorem read_originUrl (origin : Origin) (path : RequestPath) :
    UrlTarget.read (originUrl origin.base path.text) = some
      ⟨origin.authority, (if origin.trailingSlash then "//" else "/") ++ path.text, none⟩ := by
  have plain := read_plain origin.scheme_plain origin.authority_plain path.plain
  cases slash : origin.trailingSlash with
  | false => simpa [originUrl, Origin.base, slash, String.append_assoc] using plain
  | true =>
    have deeperPlain : ∀ c ∈ ("/" ++ path.text).toList, c ≠ '?' ∧ c ≠ '#' := by
      intro c member
      rw [String.toList_append] at member
      rcases List.mem_append.mp member with left | right
      · rw [List.mem_singleton.mp left]
        decide
      · exact path.plain c right
    have deeper := read_plain origin.scheme_plain origin.authority_plain deeperPlain
    have double : "/" ++ ("/" ++ path.text) = "//" ++ path.text := by
      rw [← String.append_assoc]
      rfl
    rw [double] at deeper
    simpa [originUrl, Origin.base, slash, String.append_assoc, double] using deeper

section Pages
variable {ι : Type} [DecidableEq ι] {brotli : Brotli} {disk initial : String → Option ByteArray}
  {requests : ι → ReplicaRequest} {p : Pool ι Replica ReplicaTask}

/-- In every run a request for a page stays a request for that page. -/
theorem reach_proxy_path (reach : Pool.Reach (replicaStep brotli disk) Pool.Free (warmPool initial requests) p)
    {i : ι} {path : String} (asked : requests i = .proxy path) : ∃ pc, p.task i = .proxy ⟨path, pc⟩ := by
  have invariant := Pool.Reach.indexed (fun _ => True)
    (fun i _ (task : ReplicaTask) => ∀ path, requests i = .proxy path → ∃ pc, task = .proxy ⟨path, pc⟩)
    reach trivial ?_ ?_ (fun i j s t s' t' u _ _ _ same => same)
  · exact invariant.2 i path asked
  · intro i path asked
    refine ⟨.tryRead, ?_⟩
    simp only [warmPool, asked]
    rfl
  · rintro i replica task replica' task' _ own ⟨around, taken⟩
    refine ⟨trivial, fun path asked => ?_⟩
    obtain ⟨pc, rfl⟩ := own path asked
    obtain ⟨⟨after, next⟩, moved, ends⟩ := Option.map_eq_some_iff.mp taken
    cases ends
    have same : next.path = path := (ProxyTask.step_reads moved).2.2
    exact ⟨next.pc, by rw [← same]⟩

end Pages

/-- The request is handed to `proxy`, and whenever it is fetched, under the
path and the query that it came with. -/
def ServedUnderOwnUrl (origin : Origin) (request : HttpRequest) : Prop :=
  ∃ key, routes request = some (.proxy key) ∧
    ∀ (brotli : Brotli) (disk initial : String → Option ByteArray) (ι : Type) [DecidableEq ι]
      (requests : ι → ReplicaRequest) (p : Pool ι Replica ReplicaTask) (i : ι),
      Pool.Reach (replicaStep brotli disk) Pool.Free (warmPool initial requests) p → requests i = .proxy key →
        ∀ url, (p.task i).fetchUrl origin.base = some url →
          UrlTarget.read url = some ⟨origin.authority, "/" ++ request.path.text, request.query⟩

/-- A page that is missed everywhere is fetched. -/
theorem proxy_fetches (origin : String) (key : String) :
    ∃ p, Pool.Reach (replicaStep storing fun _ => none) Pool.Free
        (warmPool (fun _ => none) fun _ : Unit => ReplicaRequest.proxy key) p ∧
      (p.task ()).fetchUrl origin = some (originUrl origin key) := by
  have alone : Pool.Alone (answeredStep storing (fun _ => none) fun _ => .failure)
      (⟨fun _ => none, RwLock.free, []⟩, .proxy (proxy key))
      (⟨fun _ => none, RwLock.free, []⟩, .proxy ⟨key, .fetching⟩) :=
    proxy_miss_alone storing (fun _ => none) [] rfl rfl
  have reach := Pool.Alone.reach (p := warmPool (fun _ => none) fun _ : Unit => ReplicaRequest.proxy key) (i := ())
    alone rfl
  refine ⟨_, reach.mono fun _ _ _ _ taken => answeredStep_sound taken, ?_⟩
  rw [Pool.advance_self]
  rfl

theorem originUrl_own_iff (origin : Origin) (request : HttpRequest) :
    UrlTarget.read (originUrl origin.base request.path.text) =
        some ⟨origin.authority, "/" ++ request.path.text, request.query⟩ ↔
      origin.trailingSlash = false ∧ request.query = none := by
  rw [read_originUrl]
  cases origin.trailingSlash with
  | false => simp [eq_comm]
  | true =>
    have longer : "//" ++ request.path.text ≠ "/" ++ request.path.text := by
      intro same
      have lengths := congrArg String.length same
      rw [String.length_append, String.length_append] at lengths
      exact absurd (Nat.add_right_cancel lengths) (by decide)
    simp [longer]

theorem own_of_served {origin : Origin} {request : HttpRequest} (page : ¬ request.IsControl)
    (served : ServedUnderOwnUrl origin request) :
    origin.trailingSlash = false ∧ request.query = none ∧ '/' ∉ request.path.text.toList := by
  obtain ⟨key, routed, named⟩ := served
  obtain ⟨rfl, single⟩ := (routes_proxy_iff page).mp routed
  obtain ⟨p, reach, fetched⟩ := proxy_fetches origin.base request.path.text
  have own := named storing (fun _ => none) (fun _ => none) Unit _ p () reach rfl _ fetched
  obtain ⟨noSlash, noQuery⟩ := (originUrl_own_iff origin request).mp own
  exact ⟨noSlash, noQuery, single⟩

/-- A page has its own URL at the origin just when its path is one segment and
it has no query, and then only for a base without a slash at the end. -/
theorem served_under_own_url_iff (origin : Origin) {request : HttpRequest} (page : ¬ request.IsControl) :
    ServedUnderOwnUrl origin request ↔
      origin.trailingSlash = false ∧ request.query = none ∧ '/' ∉ request.path.text.toList := by
  constructor
  · exact own_of_served page
  · rintro ⟨noSlash, noQuery, single⟩
    refine ⟨request.path.text, (routes_proxy_iff page).mpr ⟨rfl, single⟩, ?_⟩
    intro brotli disk initial ι _ requests p i reach asked url fetched
    obtain ⟨pc, here⟩ := reach_proxy_path reach asked
    rw [here] at fetched
    have same : url = originUrl origin.base request.path.text := by
      cases pc <;> cases fetched
      rfl
    rw [same]
    exact (originUrl_own_iff origin request).mpr ⟨noSlash, noQuery⟩

def originServer (trailingSlash : Bool) : Origin where
  scheme := "http"
  authority := "cs5700cdnorigin.ccs.neu.edu:8080"
  trailingSlash := trailingSlash
  scheme_plain := by decide
  authority_plain := List.all_iff_forall_prop.mp (by decide)

def indexPage : RequestPath := ⟨"index.html", List.all_iff_forall_prop.mp (by decide)⟩

def getIndex : HttpRequest where
  method := "GET"
  path := indexPage
  query := none
  body := ByteArray.empty

theorem getIndex_page : ¬ getIndex.IsControl := by
  unfold HttpRequest.IsControl
  decide

theorem served_under_own_url_index : ServedUnderOwnUrl (originServer false) getIndex :=
  (served_under_own_url_iff (originServer false) getIndex_page).mpr ⟨rfl, rfl, by decide⟩

/-- The base is written as `deploy.sh` writes it. -/
theorem deployed_base_doubles_slash : ¬ ServedUnderOwnUrl (originServer true) getIndex := by
  intro served
  cases (own_of_served getIndex_page served).1

end SimpleCdn
