import SimpleCdn.Replica.Preloads
import SimpleCdn.Replica.Routes
import SimpleCdn.RunCdn

namespace SimpleCdn

/-- The characters that end a path on its way from the file to the task. -/
def endsPath (c : Char) : Bool := c == ';' || c == '\n' || c == '\r'

/-- The pieces of the file and those of the body agree, but for empty pieces
that are left where a line ended in two characters. -/
theorem preloadFiles_pieces (chars : List Char) :
    let body := (universalNewlines chars).map fun c => if c = '\n' then ';' else c
    ∃ first bodyRest fileRest, body.splitOnP (· == ';') = first :: bodyRest ∧
      chars.splitOnP endsPath = first :: fileRest ∧
      bodyRest.filter (fun piece => !piece.isEmpty) = fileRest.filter (fun piece => !piece.isEmpty) := by
  induction chars using universalNewlines.induct with
  | case1 rest ih =>
    obtain ⟨first, bodyRest, fileRest, inBody, inFile, same⟩ := ih
    refine ⟨[], first :: bodyRest, [] :: first :: fileRest, ?_, ?_, ?_⟩
    · simp [universalNewlines, List.splitOnP_cons_eq_if_modifyHead, inBody]
    · simp [List.splitOnP_cons_eq_if_modifyHead, endsPath, inFile]
    · simp [List.filter_cons, same]
  | case2 rest other ih =>
    obtain ⟨first, bodyRest, fileRest, inBody, inFile, same⟩ := ih
    refine ⟨[], first :: bodyRest, first :: fileRest, ?_, ?_, ?_⟩
    · rw [universalNewlines]
      · simp [List.splitOnP_cons_eq_if_modifyHead, inBody]
      · exact other
    · simp [List.splitOnP_cons_eq_if_modifyHead, endsPath, inFile]
    · simp [List.filter_cons, same]
  | case3 c rest notPair notReturn ih =>
    obtain ⟨first, bodyRest, fileRest, inBody, inFile, same⟩ := ih
    have plain : c ≠ '\r' := fun this => notReturn this
    have read : universalNewlines (c :: rest) = c :: universalNewlines rest := by
      rw [universalNewlines]
      · exact notPair
      · exact notReturn
    by_cases ends : c = ';' ∨ c = '\n'
    · have inEither : endsPath c = true ∧ ((if c = '\n' then ';' else c) == ';') = true := by
        rcases ends with rfl | rfl <;> decide
      refine ⟨[], first :: bodyRest, first :: fileRest, ?_, ?_, ?_⟩
      · simp [read, List.splitOnP_cons_eq_if_modifyHead, inEither.2, inBody]
      · simp [List.splitOnP_cons_eq_if_modifyHead, inEither.1, inFile]
      · simp [List.filter_cons, same]
    · have apart : c ≠ ';' ∧ c ≠ '\n' := not_or.mp ends
      refine ⟨c :: first, bodyRest, fileRest, ?_, ?_, same⟩
      · simp [read, List.splitOnP_cons_eq_if_modifyHead, apart.1, apart.2, inBody]
      · simp [List.splitOnP_cons_eq_if_modifyHead, endsPath, apart.1, apart.2, plain, inFile]
  | case4 => exact ⟨[], [], [], rfl, rfl, rfl⟩

/-- The paths that the task is given are what stands between the semicolons
and the line ends of the file. -/
theorem preloadPaths_preloadFiles (file : String) :
    preloadPaths (preloadFiles file) = wordsBetween endsPath file := by
  obtain ⟨first, bodyRest, fileRest, inBody, inFile, same⟩ := preloadFiles_pieces file.toList
  rw [preloadPaths, splitOnChar_filter, wordsBetween, wordsBetween, preloadFiles, String.toList_ofList, inBody,
    inFile, List.filter_cons, List.filter_cons, same]

/-- A file that lists these pages one on each line. The last line may be ended
or not, and any line may be empty. -/
def Lists (file : String) (pages : List RequestPath) : Prop :=
  (splitOnChar '\n' file).filter (· ≠ "") = pages.map RequestPath.text

def preloadRequest (file : String) : HttpRequest where
  method := "POST"
  path := ⟨"preload", List.all_iff_forall_prop.mp (by decide)⟩
  query := none
  body := (preloadFiles file).toUTF8

def RequestPath.get (page : RequestPath) : HttpRequest where
  method := "GET"
  path := page
  query := none
  body := ByteArray.empty

theorem routes_preloadRequest (file : String) :
    routes (preloadRequest file) = some (.preload (preloadFiles file)) := by
  have sent : fromUtf8Lossy (preloadRequest file).body = preloadFiles file := fromUtf8Lossy_toUTF8 _
  have root : (preloadRequest file).path.text ≠ "" := by
    show "preload" ≠ ""
    decide
  have here : (preloadRequest file).path.text = "preload" := rfl
  simp only [routes, Routes.root, Routes.preload, if_neg root, if_pos here, sent]
  rfl

/-- The pages that a GET request reaches. -/
theorem routes_get_iff (page : RequestPath) :
    routes page.get = some (.proxy page.text) ↔ '/' ∉ page.text.toList ∧ page.text ≠ "preload" := by
  by_cases control : page.get.IsControl
  · have endpoint : page.text = "preload" ∨ page.text = "grading/beacon" := by
      rcases control with preload | beacon | ⟨post, _⟩
      · exact Or.inl preload
      · exact Or.inr beacon
      · exact absurd (show "GET" = "POST" from post) (by decide)
    have here : page.get.path.text = page.text := rfl
    rcases endpoint with preload | beacon
    · simp [routes, Routes.root, Routes.preload, here, preload]
    · simp [routes, Routes.root, Routes.preload, Routes.beacon, here, beacon]
  · rw [routes_proxy_iff control]
    have notPreload : page.text ≠ "preload" := fun preload => control (Or.inl preload)
    exact ⟨fun routed => ⟨routed.2, notPreload⟩, fun routed => ⟨rfl, routed.1⟩⟩

/-- The page is sent from the cache, whatever is on the disk and whatever the
origin would answer. -/
def RamHit (brotli : Brotli) (replica : Replica) (path text : String) : Prop :=
  ∀ disk origin, Pool.Alone (answeredStep brotli disk origin) (replica, .proxy (proxy path))
    (replica, .proxy ⟨path, .replied (html text)⟩)

/-- What preloading a file is for: the pages that it lists, and no others, come
into the cache, and from then on each is served from there. -/
def PreloadServes (file : String) (pages : List RequestPath) : Prop :=
  ∃ body, routes (preloadRequest file) = some (.preload body) ∧
    ∀ (brotli : Brotli) (disk initial : String → Option ByteArray) (content : String → String)
      (p : Pool Unit Replica ReplicaTask),
      Pool.Reach (replicaStep brotli disk) Pool.Free (warmPool initial fun _ => ReplicaRequest.preload body) p →
      OriginGives (fun path => some (content path)) p.shared.answered → (p.task ()).Ended →
        (∀ path, (p.shared.ramCache path).isSome ↔ (initial path).isSome ∨
          path ∈ pages.map RequestPath.text) ∧
        ∀ page ∈ pages, routes page.get = some (.proxy page.text) ∧
          (p.shared.lock = RwLock.free → RamHit brotli p.shared page.text (content page.text))

theorem Preloaded.isSome_iff {brotli : Brotli} {content : String → String}
    {initial cache : String → Option ByteArray} {listed : String → Prop}
    (preloaded : Preloaded brotli content initial listed cache) (path : String) :
    (cache path).isSome ↔ (initial path).isSome ∨ listed path := by
  by_cases member : listed path
  · simp [preloaded.stored path member, member]
  · simp [preloaded.kept path member, member]

theorem listed_preload (body path : String) :
    Listed (fun _ : Unit => ReplicaRequest.preload body) path ↔ path ∈ preloadPaths body := by
  rw [listed_iff]
  exact ⟨fun ⟨_, member⟩ => member, fun member => ⟨(), member⟩⟩

/-- Some run of the task comes to its end, so what is served afterwards tells
which paths it was given. -/
theorem PreloadServes.mem_iff {file : String} {pages : List RequestPath} (serves : PreloadServes file pages) :
    (∀ path, path ∈ wordsBetween endsPath file ↔ path ∈ pages.map RequestPath.text) ∧
      ∀ page ∈ pages, routes page.get = some (.proxy page.text) := by
  obtain ⟨body, routed, runs⟩ := serves
  rw [routes_preloadRequest] at routed
  cases routed
  have fetched : ∀ path ∈ preloadPaths (preloadFiles file),
      fetchFromOrigin (steadyOrigin (fun path => path) path) = .content path := fun _ _ => rfl
  obtain ⟨p, reach, ended, _, gives⟩ := preload_run storing (fun _ => none) (preloadFiles file)
    (fun _ => none) fetched
  obtain ⟨keys, answers⟩ := runs storing (fun _ => none) (fun _ => none) (fun path => path) p reach gives
    (ended ())
  refine ⟨fun path => ?_, fun page member => (answers page member).1⟩
  have cached := (ended_preloaded reach gives ended).isSome_iff path
  rw [keys path, listed_preload, preloadPaths_preloadFiles] at cached
  simpa using cached.symm

/-- A listed path that the script sends as it is, and the router hands to `proxy`. -/
def RequestPath.Preloadable (page : RequestPath) : Prop :=
  (∀ c ∈ page.text.toList, c ≠ ';' ∧ c ≠ '\r' ∧ c ≠ '/') ∧ page.text ≠ "preload"

theorem wordsBetween_lists {file : String} {pages : List RequestPath} (lists : Lists file pages)
    (plain : ∀ page ∈ pages, ∀ c ∈ page.text.toList, c ≠ ';' ∧ c ≠ '\r') :
    wordsBetween endsPath file = pages.map RequestPath.text := by
  rw [Lists, splitOnChar_filter] at lists
  rw [← lists]
  refine wordsBetween_congr fun c member => ?_
  by_cases newline : c = '\n'
  · rw [newline]
    decide
  · have kept : (c == '\n') = false := beq_eq_false_iff_ne.mpr newline
    obtain ⟨word, inWords, inWord⟩ := exists_mem_wordsBetween (p := (· == '\n')) member kept
    rw [lists] at inWords
    obtain ⟨page, inPages, rfl⟩ := List.mem_map.mp inWords
    have apart := plain page inPages c inWord
    have free : endsPath c = false := by simp [endsPath, newline, apart.1, apart.2]
    exact free.trans kept.symm

/-- Every listed page is served from the cache just when none has a semicolon,
a carriage return or a slash in its path or is named like the endpoint. -/
theorem preload_list_iff {file : String} {pages : List RequestPath} (lists : Lists file pages) :
    PreloadServes file pages ↔ ∀ page ∈ pages, page.Preloadable := by
  constructor
  · intro serves page member
    obtain ⟨words, answers⟩ := serves.mem_iff
    have inWords := (words page.text).mpr (List.mem_map_of_mem member)
    obtain ⟨single, notPreload⟩ := (routes_get_iff page).mp (answers page member)
    refine ⟨fun c inPage => ?_, notPreload⟩
    have free := not_of_mem_wordsBetween inWords c inPage
    simp only [endsPath, Bool.or_eq_false_iff, beq_eq_false_iff_ne] at free
    exact ⟨free.1.1, free.2, fun slash => single (slash ▸ inPage)⟩
  · intro preloadable
    have words : preloadPaths (preloadFiles file) = pages.map RequestPath.text := by
      rw [preloadPaths_preloadFiles]
      refine wordsBetween_lists lists fun page member c inPage => ?_
      have plain := (preloadable page member).1 c inPage
      exact ⟨plain.1, plain.2.1⟩
    refine ⟨preloadFiles file, routes_preloadRequest file, ?_⟩
    intro brotli disk initial content p reach gives ended
    have preloaded := ended_preloaded reach gives fun _ => ended
    constructor
    · intro path
      rw [preloaded.isSome_iff, listed_preload, words]
    · intro page member
      obtain ⟨plain, notPreload⟩ := preloadable page member
      refine ⟨(routes_get_iff page).mpr ⟨fun slash => (plain '/' slash).2.2 rfl, notPreload⟩,
        fun free disk' origin => ?_⟩
      have listed : Listed (fun _ : Unit => ReplicaRequest.preload (preloadFiles file)) page.text := by
        rw [listed_preload, words]
        exact List.mem_map_of_mem member
      exact proxy_hit_alone brotli disk' free (preloaded.stored page.text listed)

def mainPage : RequestPath := ⟨"Main_Page", List.all_iff_forall_prop.mp (by decide)⟩

def catPage : RequestPath := ⟨"Cat", List.all_iff_forall_prop.mp (by decide)⟩

/-- A blank line in the list does no harm, nor does a last line that is not ended. -/
theorem preload_list_blank_line : PreloadServes "index.html\n\nMain_Page\nCat" [indexPage, mainPage, catPage] := by
  have lists : Lists "index.html\n\nMain_Page\nCat" [indexPage, mainPage, catPage] := by
    unfold Lists
    decide
  refine (preload_list_iff lists).mpr fun page member => ?_
  simp only [List.mem_cons, List.not_mem_nil, or_false] at member
  rcases member with rfl | rfl | rfl <;> exact ⟨List.all_iff_forall_prop.mp (by decide), by decide⟩

def titleWithSemicolon : RequestPath := ⟨"AC;DC", List.all_iff_forall_prop.mp (by decide)⟩

/-- The path is cut at its semicolon, and the page itself is not preloaded. -/
theorem title_with_semicolon_missed :
    Lists "AC;DC\n" [titleWithSemicolon] ∧ ¬ PreloadServes "AC;DC\n" [titleWithSemicolon] := by
  refine ⟨by unfold Lists; decide, fun serves => ?_⟩
  have inWords := (serves.mem_iff.1 "AC;DC").mpr (List.mem_singleton.mpr rfl)
  have free := not_of_mem_wordsBetween inWords ';' (by decide)
  cases free

end SimpleCdn
