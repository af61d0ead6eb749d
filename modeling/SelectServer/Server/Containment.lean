import SelectServer.CLib.Paths
import SelectServer.Server.WriteExits
import SelectServer.Shared.Receive

/-!
# The paths the server opens

`handle_client_http_write` opens `RESOURCES_FOLDER` followed by the URI, and nothing else.
Its tests in front of `open` ask for a leading slash and for a dot somewhere in the URI;
neither looks at the segments, so the path leaves the folder whenever the segments do.
-/

namespace SelectServer

open CLib

/-! ## What the exits have opened -/

section Opened

variable {env : WriteEnv} {data : ClientHttpData} {effects : List Effect} {run : WriteRun}
  {p : List UInt8}

theorem openFile_mem_sendResponse {response : HTTPResponse} {blocks : List Block} :
    .openFile p ∈ (sendResponse env data response effects blocks).effects ↔
      .openFile p ∈ effects := by
  obtain ⟨sent, heffects⟩ := sendResponse_effects env data response effects blocks
  simp [heffects]

theorem StatusExit.openFile_mem_iff {statusCode : Int} {reasonPhrase : List UInt8}
    (h : StatusExit env data statusCode reasonPhrase effects run) :
    .openFile p ∈ run.effects ↔ .openFile p ∈ effects := by
  cases h with
  | noResponse blocks _ => exact Iff.rfl
  | sent blocks _ => exact openFile_mem_sendResponse

theorem FileExit.openFile_mem_iff {extension : List UInt8} {fd : Int} {size : Nat}
    (h : FileExit env data effects extension fd size run) :
    .openFile p ∈ run.effects ↔ .openFile p ∈ effects := by
  cases h with
  | sent blocks _ _ _ _ => simp [openFile_mem_sendResponse]
  | _ => simp

theorem ListingExit.openFile_mem_iff (h : ListingExit env data effects run) :
    .openFile p ∈ run.effects ↔ .openFile p ∈ effects := by
  cases h with
  | sent blocks _ _ _ _ => simp [openFile_mem_sendResponse]
  | _ => simp

theorem UriExit.openFile_mem_iff {uri : List UInt8} (h : UriExit env data uri run) :
    .openFile p ∈ run.effects ↔ env.NamesFile uri ∧ p = resourcesFolder ++ uri := by
  cases h with
  | badRequest hbad hexit =>
    rw [hexit.openFile_mem_iff]
    simp [acquired, not_namesFile_of_badRequest hbad]
  | noPath _ _ hpath => simp [acquired, WriteEnv.NamesFile, hpath]
  | file hnames _ _ hexit =>
    rw [hexit.openFile_mem_iff]
    simp [acquired, hnames]
  | notFound hnames _ _ hexit =>
    rw [hexit.openFile_mem_iff]
    simp [acquired, hnames]
  | ofTwoMinds blocks hnames _ _ => simp [acquired, hnames]
  | listing hslash hexit =>
    have hnames : ¬ env.NamesFile uri := fun h => ne_slash_of_namesFile h hslash
    rw [hexit.openFile_mem_iff]
    simp [acquired, hnames]

end Opened

/-- The handler opens at most one path, the folder followed by the URI, and it does so for
every URI with a leading slash and a dot. -/
theorem openFile_mem_handleClientHttpWrite {env : WriteEnv} {data : ClientHttpData}
    {p : List UInt8} :
    .openFile p ∈ (handleClientHttpWrite env (some data)).effects ↔
      (env.threadResult = true ∧ env.fullPath = true) ∧ ∃ request, data.request = some request ∧
        (request.line.uri.head? = some 47 ∧ 46 ∈ request.line.uri) ∧
        p = resourcesFolder ++ request.line.uri := by
  have hexit := handleClientHttpWrite_exit env data
  generalize handleClientHttpWrite env (some data) = run at hexit ⊢
  cases hexit with
  | noResult hresult => simp [acquired, hresult]
  | noRequest _ hnone => simp [acquired, hnone]
  | request hresult hrequest hexit =>
    rw [hexit.openFile_mem_iff, hrequest]
    constructor
    · rintro ⟨⟨hhead, hpath, hdot⟩, rfl⟩
      exact ⟨⟨hresult, hpath⟩, _, rfl, ⟨hhead, hdot⟩, rfl⟩
    · rintro ⟨⟨-, hpath⟩, request', hrequest', ⟨hhead, hdot⟩, rfl⟩
      obtain rfl := Option.some.inj hrequest'
      exact ⟨⟨hhead, hpath, hdot⟩, rfl⟩

/-! ## Containment -/

/-- Whatever the system answers, the path opened for this URI stays below the folder. -/
def OpensBelow (uri : List UInt8) : Prop :=
  ∀ env data request p, data.request = some request → request.line.uri = uri →
    .openFile p ∈ (handleClientHttpWrite env (some data)).effects →
    (normalize p).Below resourcesFolder

/-- The server opens no path outside its folder exactly for the URIs that its tests stop
(no leading slash, or no dot) and for those whose segments never climb above the folder, or
climb to its parent and come back by its name. -/
theorem opensBelow_iff (uri : List UInt8) :
    OpensBelow uri ↔
      (uri.head? = some 47 ∧ 46 ∈ uri → StaysInside resourcesFolder (segments uri)) := by
  have hname : segmentOf resourcesFolder = .name resourcesFolder := by decide
  have hslash : 47 ∉ resourcesFolder := by decide
  have hbelow : uri.head? = some 47 → ((normalize (resourcesFolder ++ uri)).Below resourcesFolder ↔
      StaysInside resourcesFolder (segments uri)) := by
    intro hhead
    rw [normalize_append hname hslash hhead, NormalPath.walk_below_iff]
  constructor
  · -- a system in which every call succeeds opens the path
    rintro h ⟨hhead, hdot⟩
    rw [← hbelow hhead]
    exact h (.ideal 5 []) ⟨4, some ⟨⟨[], uri, []⟩, [], none, 0⟩, none⟩ _ _ rfl rfl
      (openFile_mem_handleClientHttpWrite.mpr ⟨⟨rfl, rfl⟩, _, rfl, ⟨hhead, hdot⟩, rfl⟩)
  · rintro h env data request p hrequest rfl hopen
    obtain ⟨-, request', hrequest', huri, rfl⟩ := openFile_mem_handleClientHttpWrite.mp hopen
    obtain rfl : request = request' := by simpa [hrequest] using hrequest'
    exact (hbelow huri.1).mpr (h huri)

/-- A received request that makes the server open a file outside its folder. -/
theorem opensBelow_parent :
    ∃ request : HTTPRequest,
      (receiveHttpRequest .ideal ⟨[bytes "GET /../server.c HTTP/1.1\r\n\r\n"], .closed⟩).outcome =
        .returned request.raw ∧
      .openFile (bytes "assets/../server.c") ∈
        (handleClientHttpWrite (.ideal 5 []) (some ⟨4, some request, none⟩)).effects ∧
      normalize (bytes "assets/../server.c") = ⟨0, [bytes "server.c"]⟩ ∧
      ¬ OpensBelow request.line.uri := by
  have hopen : .openFile (bytes "assets/../server.c") ∈ (handleClientHttpWrite (.ideal 5 []) (some
      ⟨4, some ⟨⟨bytes "GET", bytes "/../server.c", bytes "HTTP/1.1"⟩, [], none, 0⟩,
        none⟩)).effects := by decide
  refine ⟨_, by decide, hopen, by decide, fun h => ?_⟩
  have hbelow := h _ _ _ _ rfl rfl hopen
  revert hbelow
  decide

end SelectServer
