import SelectServer.Server.WriteExits
import SelectServer.Systems.Transition

/-!
# `lock_file`

`handle_client_http_write` takes `lock_file` for the file it opens and for the folder it lists,
and each exit gives it back by hand. Some exits forget: the block for the text of the size
cannot be allocated, the folder cannot be opened, or the file counts neither as opened nor as
missing. On others the handler does not return at all. Whether a call gives `lock_file` back
can be told from the answers of the system (`lock_file_released_iff`).

Calls that all give it back never wait for it; behind one that keeps it every call that wants
it waits for ever (`calls_go_on`, `call_waits`).
-/

namespace SelectServer

open CLib Systems

/-! ## Giving a mutex back -/

/-- The mutex is unlocked as often as it is locked. -/
def Balanced (m : Mutex) (effects : List Effect) : Prop :=
  effects.count (.lock m) = effects.count (.unlock m)

/-- The mutex is locked once more than it is unlocked. -/
def LeftLocked (m : Mutex) (effects : List Effect) : Prop :=
  effects.count (.lock m) = effects.count (.unlock m) + 1

instance (m : Mutex) (effects : List Effect) : Decidable (Balanced m effects) :=
  inferInstanceAs (Decidable (_ = _))

instance (m : Mutex) (effects : List Effect) : Decidable (LeftLocked m effects) :=
  inferInstanceAs (Decidable (_ = _))

/-- The handler returns, and has unlocked the mutex as often as it has locked it. -/
structure WriteRun.Releases (m : Mutex) (r : WriteRun) : Prop where
  returns : r.outcome.Returns
  balanced : Balanced m r.effects

section Effects

variable {m : Mutex} {effects : List Effect}

theorem LeftLocked.not_balanced (h : LeftLocked m effects) : ¬ Balanced m effects := by
  intro hbalanced
  rw [Balanced, h] at hbalanced
  exact Nat.succ_ne_self _ hbalanced

theorem LeftLocked.unlock (h : LeftLocked m effects) : Balanced m (effects ++ [.unlock m]) := by
  simpa [LeftLocked, Balanced] using h

theorem LeftLocked.close (h : LeftLocked m effects) (fd : Int) :
    LeftLocked m (effects ++ [.close fd]) := by
  simpa [LeftLocked] using h

theorem LeftLocked.close_unlock (h : LeftLocked m effects) (fd : Int) :
    Balanced m (effects ++ [.close fd, .unlock m]) := by
  simpa [LeftLocked, Balanced] using h

/-- The request is looked at with `lock` given back and `lock_file` not taken. -/
theorem balanced_acquired : Balanced m acquired := by
  cases m with
  | lock => rfl
  | lockFile => rfl

theorem leftLocked_openFile (path : List UInt8) :
    LeftLocked .lockFile (acquired ++ [.lock .lockFile, .openFile path]) := rfl

theorem leftLocked_opendir (path : List UInt8) :
    LeftLocked .lockFile (acquired ++ [.lock .lockFile, .opendir path]) := rfl

theorem not_releases_fault {blocks : List Block} :
    ¬ WriteRun.Releases m ⟨.fault, effects, blocks⟩ := fun h => h.returns

theorem sendResponse_releases_iff {env : WriteEnv} {data : ClientHttpData}
    {response : HTTPResponse} {blocks : List Block} (h : Balanced m effects) :
    (sendResponse env data response effects blocks).Releases m ↔
      sendHttpResponse env.serialize response env.script ≠ none := by
  rw [sendResponse]
  cases sendHttpResponse env.serialize response env.script with
  | none => exact iff_of_false not_releases_fault fun hn => hn rfl
  | some r =>
    refine iff_of_true ⟨trivial, ?_⟩ (Option.some_ne_none r)
    simpa [Balanced] using h

end Effects

/-! ## The exits -/

/-- The answers with which the branch for an open file of `size` bytes gives `lock_file` back:
response and headers can be made, the headers can be freed if the content fails, and otherwise
there is content for the whole size, which is copied with its own length, and headers that can be
read. -/
structure WriteEnv.ReleasesFile (env : WriteEnv) (extension : List UInt8) (size : Nat) : Prop where
  prepared : env.Prepared
  rejected : env.ContentFails size → env.HeadersFreeable
  sent : ¬ env.ContentFails size → size ≤ (contentRead env.reads).length ∧
    env.HeadersComplete ∧ ¬ env.OvercopiesFile extension size

/-- The answers with which the listing gives `lock_file` back: the folder can be opened, the
response can be made, the sizes of its entries do not add up to `-1`, and headers can be made, if
it comes to that. -/
structure WriteEnv.ReleasesListing (env : WriteEnv) : Prop where
  opendir : env.opendir ≠ none
  response : env.response = true
  body : ∀ first second, ¬ env.Wraps first second
  headers : ∀ first second, env.Listed first second → env.sizeStr = true →
    env.HeadersUsable ∧ env.HeadersComplete

/-- The answers with which a request for the URI gives `lock_file` back. -/
structure WriteEnv.ReleasesLockFile (env : WriteEnv) (uri : List UInt8) : Prop where
  badRequest : env.BadRequest uri → env.response = true
  listing : uri = [47] → env.ReleasesListing
  file : env.NamesFile uri → ∀ extension size,
    strrchr 46 (resourcesFolder ++ uri) = some extension → env.fileSize uri = some size →
      env.ReleasesFile extension size
  notFound : env.NamesFile uri → env.fileSize uri = none →
    env.Missing uri ∧ env.response = true

section Exits

variable {env : WriteEnv} {data : ClientHttpData} {effects : List Effect} {run : WriteRun}

/-- The content of a file fails, or all of it is there, or the loop does not end. -/
theorem not_contentFails {size : Nat} (hcontent : env.fileContent = true)
    (h : size ≤ (contentRead env.reads).length ∨ .failed ∉ env.reads) :
    ¬ env.ContentFails size := by
  intro hfails
  obtain ⟨hlt, hmem⟩ := hfails hcontent
  exact h.elim hlt.not_ge fun hn => hn hmem

theorem FileExit.releases_iff {extension : List UInt8} {fd : Int} {size : Nat}
    (h : FileExit env data effects extension fd size run) (hsize : size < 2 ^ 63)
    (hlocked : LeftLocked .lockFile effects) :
    run.Releases .lockFile ↔ env.ReleasesFile extension size := by
  have hclosed := hlocked.close_unlock fd
  cases h with
  | noSizeStr blocks hstr =>
    apply iff_of_false
    · exact fun hrel => (hlocked.close fd).not_balanced hrel.balanced
    · intro hrel
      exact Bool.false_ne_true (hstr.symm.trans hrel.prepared.sizeStr)
  | notPrepared blocks hn =>
    apply iff_of_false
    · exact not_releases_fault
    · exact fun hrel => hn hrel.prepared
  | rejected blocks hprepared hfails hfreeable =>
    apply iff_of_true
    · exact ⟨trivial, hclosed⟩
    · exact ⟨hprepared, fun _ => hfreeable, fun hn => absurd hfails hn⟩
  | notFreeable blocks hprepared hfails hn =>
    apply iff_of_false
    · exact not_releases_fault
    · exact fun hrel => hn (hrel.rejected hfails)
  | spins blocks hprepared hcontent hlt hmem =>
    apply iff_of_false
    · exact fun hrel => hrel.returns
    · intro hrel
      have hwhole := (hrel.sent (not_contentFails hcontent (Or.inr hmem))).1
      exact hlt.not_ge hwhole
  | notReadable blocks hprepared hcontent hle hn =>
    apply iff_of_false
    · exact not_releases_fault
    · exact fun hrel => hn (hrel.sent (not_contentFails hcontent (Or.inl hle))).2.1
  | sent blocks hprepared hcontent hle hcomplete =>
    have hwhole := not_contentFails hcontent (Or.inl hle)
    rw [sendResponse_releases_iff hclosed, Ne,
      sendHttpResponse_fileResponse_eq_none_iff extension hsize]
    constructor
    · intro hcopied
      exact ⟨hprepared, fun hfails => absurd hfails hwhole, fun _ => ⟨hle, hcomplete, hcopied⟩⟩
    · exact fun hrel => (hrel.sent hwhole).2.2

theorem ListingExit.releases_iff (h : ListingExit env data effects run)
    (hlocked : LeftLocked .lockFile effects) :
    run.Releases .lockFile ↔ env.ReleasesListing := by
  have hunlocked := hlocked.unlock
  cases h with
  | noFolder hfolder =>
    apply iff_of_false
    · exact fun hrel => hlocked.not_balanced hrel.balanced
    · exact fun hrel => hrel.opendir hfolder
  | noResponse hfolder hn =>
    apply iff_of_false
    · exact not_releases_fault
    · exact fun hrel => hn hrel.response
  | wraps hwraps =>
    apply iff_of_false
    · exact not_releases_fault
    · exact fun hrel => hrel.body _ _ hwraps
  | @noBody first second hfolder hresponse hn =>
    -- the passes are those that the folder has been opened with
    have hfirst : ∀ {first' second'}, env.opendir = some (first', second') → first = first' :=
      fun hfolder' => (Prod.mk.inj (Option.some.inj (hfolder.symm.trans hfolder'))).1
    apply iff_of_true
    · exact ⟨trivial, hunlocked⟩
    · refine ⟨by simp [hfolder], hresponse, fun _ _ hwraps => hn ⟨hwraps.body, ?_⟩,
        fun _ _ hlisted _ => absurd ⟨hlisted.body, ?_⟩ hn⟩
      · rw [hfirst hwraps.opendir, hwraps.size]
      · rw [hfirst hlisted.opendir]
        exact (by decide : (-1 : Int) ≤ 0).trans hlisted.size
  | noSizeStr response blocks hlisted hsize =>
    apply iff_of_true
    · exact ⟨trivial, hunlocked⟩
    · refine ⟨by simp [hlisted.opendir], hlisted.response, hlisted.not_wraps,
        fun _ _ _ htrue => ?_⟩
      exact absurd (hsize.symm.trans htrue) Bool.false_ne_true
  | notReadable blocks hlisted hsize hn =>
    apply iff_of_false
    · exact not_releases_fault
    · exact fun hrel => hn (hrel.headers _ _ hlisted hsize)
  | sent blocks hlisted hsize husable hcomplete =>
    apply iff_of_true
    · rw [sendResponse_releases_iff hunlocked]
      exact sendHttpResponse_listingResponse_ne_none hlisted
    · exact ⟨by simp [hlisted.opendir], hlisted.response, hlisted.not_wraps,
        fun _ _ _ _ => ⟨husable, hcomplete⟩⟩

theorem StatusExit.releases_iff {statusCode : Int} {reasonPhrase : List UInt8}
    (h : StatusExit env data statusCode reasonPhrase effects run) {m : Mutex}
    (hbalanced : Balanced m effects) : run.Releases m ↔ env.response = true := by
  cases h with
  | noResponse blocks hn => exact iff_of_false not_releases_fault hn
  | sent blocks hresponse =>
    rw [sendResponse_releases_iff hbalanced]
    exact iff_of_true (sendHttpResponse_statusResponse_ne_none _ _) hresponse

theorem UriExit.releases_iff {uri : List UInt8} (h : UriExit env data uri run)
    (hstat : ∀ size, env.fstat = some size → size < 2 ^ 63) :
    run.Releases .lockFile ↔ env.ReleasesLockFile uri := by
  cases h with
  | badRequest hbad hexit =>
    rw [hexit.releases_iff balanced_acquired]
    -- a bad request names neither the folder nor a file
    have hnames := not_namesFile_of_badRequest hbad
    constructor
    · intro hresponse
      exact ⟨fun _ => hresponse, fun hslash => absurd hslash (ne_slash_of_badRequest hbad),
        fun hn => absurd hn hnames, fun hn => absurd hn hnames⟩
    · exact fun hrel => hrel.badRequest hbad
  | noPath hhead hlong hpath =>
    -- without memory for the path nothing has been locked
    have hnames : ¬ env.NamesFile uri := by
      rintro ⟨-, htrue, -⟩
      exact Bool.false_ne_true (hpath.symm.trans htrue)
    apply iff_of_true
    · exact ⟨trivial, balanced_acquired⟩
    · refine ⟨?_, ?_, fun hn => absurd hn hnames, fun hn => absurd hn hnames⟩
      · rintro (hn | ⟨-, htrue, -⟩)
        · exact absurd hhead hn
        · exact absurd (hpath.symm.trans htrue) Bool.false_ne_true
      · rintro rfl
        exact absurd hlong (Nat.lt_irrefl 1)
  | file hnames hlast hsize hexit =>
    rw [hexit.releases_iff (fileSize_lt hstat hsize) (leftLocked_openFile _)]
    constructor
    · intro hrel
      -- the extension and the size are those that were found
      refine ⟨fun hbad => absurd hnames (not_namesFile_of_badRequest hbad),
        fun hslash => absurd hslash (ne_slash_of_namesFile hnames),
        fun _ extension' size' hlast' hsize' => ?_,
        fun _ hnone => absurd (hsize.symm.trans hnone) (Option.some_ne_none _)⟩
      obtain rfl := Option.some.inj (hlast.symm.trans hlast')
      obtain rfl := Option.some.inj (hsize.symm.trans hsize')
      exact hrel
    · exact fun hrel => hrel.file hnames _ _ hlast hsize
  | notFound hnames hsize hmissing hexit =>
    -- `lock_file` is unlocked before the 404 is built
    rw [hexit.releases_iff (leftLocked_openFile _).unlock]
    constructor
    · intro hresponse
      exact ⟨fun hbad => absurd hnames (not_namesFile_of_badRequest hbad),
        fun hslash => absurd hslash (ne_slash_of_namesFile hnames),
        fun _ _ _ _ hsome => absurd (hsome.symm.trans hsize) (Option.some_ne_none _),
        fun _ _ => ⟨hmissing, hresponse⟩⟩
    · exact fun hrel => (hrel.notFound hnames hsize).2
  | ofTwoMinds blocks hnames hsize hn =>
    -- neither of the branches that unlock is taken
    apply iff_of_false
    · exact fun hrel => (leftLocked_openFile _).not_balanced hrel.balanced
    · exact fun hrel => hn (hrel.notFound hnames hsize).1
  | listing hslash hexit =>
    rw [hexit.releases_iff (leftLocked_opendir _)]
    have hnames : ¬ env.NamesFile uri := fun hn => ne_slash_of_namesFile hn hslash
    constructor
    · intro hrel
      exact ⟨fun hbad => absurd hslash (ne_slash_of_badRequest hbad), fun _ => hrel,
        fun hn => absurd hn hnames, fun hn => absurd hn hnames⟩
    · exact fun hrel => hrel.listing hslash

end Exits

/-- A call returns with `lock_file` unlocked as often as locked exactly if its answers are such,
for the URI of the request it is given; without a record, a result or a request it always
does. -/
theorem lock_file_released_iff (env : WriteEnv)
    (hstat : ∀ size, env.fstat = some size → size < 2 ^ 63) (arg : Option ClientHttpData) :
    (handleClientHttpWrite env arg).Releases .lockFile ↔
      ∀ data request, arg = some data → env.threadResult = true →
        data.request = some request → env.ReleasesLockFile request.line.uri := by
  cases arg with
  | none =>
    apply iff_of_true
    · exact ⟨trivial, rfl⟩
    · exact fun _ _ hnone => absurd hnone.symm (Option.some_ne_none _)
  | some data =>
    have hexit := handleClientHttpWrite_exit env data
    generalize handleClientHttpWrite env (some data) = run at hexit ⊢
    cases hexit with
    | noResult hresult =>
      apply iff_of_true
      · exact ⟨trivial, balanced_acquired⟩
      · exact fun _ _ _ htrue => absurd (hresult.symm.trans htrue) Bool.false_ne_true
    | noRequest hresult hnone =>
      apply iff_of_true
      · exact ⟨trivial, balanced_acquired⟩
      · rintro _ request ⟨⟩ - hrequest
        exact absurd (hrequest.symm.trans hnone) (Option.some_ne_none _)
    | request hresult hrequest hexit =>
      rw [hexit.releases_iff hstat]
      constructor
      · rintro hrel _ request' ⟨⟩ - hrequest'
        obtain rfl := Option.some.inj (hrequest.symm.trans hrequest')
        exact hrel
      · exact fun hrel => hrel data _ rfl hresult hrequest

/-- The file is missing, and the client is told so. -/
theorem lock_file_released_missing :
    (handleClientHttpWrite (.ideal (-1) []) (some ⟨4, some ⟨⟨bytes "GET", bytes "/a.txt",
      bytes "HTTP/1.1"⟩, [], none, 0⟩, none⟩)).Releases .lockFile := by
  have hstat : ∀ size, (WriteEnv.ideal (-1) []).fstat = some size → size < 2 ^ 63 := by
    intro size hsize
    rw [← Option.some.inj hsize]
    decide
  refine (lock_file_released_iff _ hstat _).mpr fun data request hdata _ hrequest => ?_
  obtain rfl := Option.some.inj hdata
  obtain rfl := Option.some.inj hrequest
  have hnone : (WriteEnv.ideal (-1) []).fileSize (bytes "/a.txt") = none := rfl
  refine ⟨fun _ => rfl, fun hslash => absurd hslash (by decide), fun _ extension size _ hsize => ?_,
    fun _ _ => ⟨Or.inl (by decide), rfl⟩⟩
  exact absurd (hnone.symm.trans hsize).symm (Option.some_ne_none size)

/-- The folder cannot be opened: the request for `/` is refused, and `lock_file` stays
locked. -/
theorem lock_file_kept :
    ∃ request : HTTPRequest,
      (receiveHttpRequest .ideal ⟨[bytes "GET / HTTP/1.1\r\n\r\n"], .closed⟩).outcome =
        .returned request.raw ∧
      (handleClientHttpWrite { WriteEnv.ideal 5 [] with opendir := none }
        (some ⟨4, some request, none⟩)).outcome =
          .returned threadResultError ⟨4, some request, none⟩ ∧
      ¬ (handleClientHttpWrite { WriteEnv.ideal 5 [] with opendir := none }
        (some ⟨4, some request, none⟩)).Releases .lockFile := by
  refine ⟨⟨⟨bytes "GET", bytes "/", bytes "HTTP/1.1"⟩, [], none, 0⟩, by decide +kernel,
    by decide +kernel, fun h => ?_⟩
  exact absurd h.balanced (by decide +kernel)

/-! ## Across calls -/

/-- One call with `lock_file` free or locked; a call that wants a locked mutex never returns. -/
def callStep (locked : Bool) (call : WriteEnv × Option ClientHttpData) : Option Bool :=
  let run := handleClientHttpWrite call.1 call.2
  if locked = true ∧ .lock .lockFile ∈ run.effects then none
  else
    match run.outcome with
    | .null | .returned _ _ => some (locked || decide (LeftLocked .lockFile run.effects))
    | .fault | .spins => none

/-- Calls that all give `lock_file` back all return, and leave it free. -/
theorem calls_go_on {calls : List (WriteEnv × Option ClientHttpData)}
    (h : ∀ call ∈ calls, (handleClientHttpWrite call.1 call.2).Releases .lockFile) :
    Systems.run callStep false calls = some false := by
  induction calls with
  | nil => rfl
  | cons call calls ih =>
    have hcall := h call List.mem_cons_self
    have hrest := ih fun c hc => h c (List.mem_cons_of_mem call hc)
    rw [run_cons_eq_some]
    refine ⟨false, ?_, hrest⟩
    have hfree : decide (LeftLocked .lockFile (handleClientHttpWrite call.1 call.2).effects) =
        false := decide_eq_false fun hleft => hleft.not_balanced hcall.balanced
    have hreturns := hcall.returns
    unfold callStep
    rw [if_neg (by simp)]
    cases hout : (handleClientHttpWrite call.1 call.2).outcome with
    | null => simp only [hfree, Bool.or_self]
    | returned value data => simp only [hfree, Bool.or_self]
    | fault => exact (hout ▸ hreturns : Handled.Returns .fault).elim
    | spins => exact (hout ▸ hreturns : Handled.Returns .spins).elim

/-- With `lock_file` locked, a call that wants it waits, and no call gives it back. -/
theorem call_waits (call : WriteEnv × Option ClientHttpData) :
    (.lock .lockFile ∈ (handleClientHttpWrite call.1 call.2).effects →
      callStep true call = none) ∧
      ∀ locked, callStep true call = some locked → locked = true := by
  constructor
  · intro hlock
    unfold callStep
    exact if_pos ⟨rfl, hlock⟩
  · intro locked hstep
    simp only [callStep] at hstep
    split at hstep
    · exact absurd hstep.symm (Option.some_ne_none _)
    · cases hout : (handleClientHttpWrite call.1 call.2).outcome with
      | null =>
        simp only [hout, Bool.true_or] at hstep
        exact (Option.some.inj hstep).symm
      | returned value data =>
        simp only [hout, Bool.true_or] at hstep
        exact (Option.some.inj hstep).symm
      | fault =>
        simp only [hout] at hstep
        exact absurd hstep.symm (Option.some_ne_none _)
      | spins =>
        simp only [hout] at hstep
        exact absurd hstep.symm (Option.some_ne_none _)

end SelectServer
