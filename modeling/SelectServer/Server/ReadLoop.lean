import Mathlib.Order.Monotone.Basic
import SelectServer.Server.WriteExits

/-!
# The loop that reads a file

`handle_client_http_write` reads until it has as many bytes as `fstat` has reported, and holds
`lock_file` meanwhile. A result of 0 is not looked at, so a file that has become shorter keeps
the loop going for ever; `recvall` leaves its loop in that case. Every other sequence of results
ends the loop, with all bytes read or through the exit of an error, and behind either of them
the file is closed and `lock_file` unlocked (`file_loop_ends_iff`).
-/

namespace SelectServer

open CLib

/-! ## Results of `read` -/

/-- The first `k` results. -/
def firstReads (reads : Nat → FileRead) (k : Nat) : List FileRead := (List.range k).map reads

/-- The file has become shorter: before `size` bytes are there, and without an error, its end is
reported, and from there on nothing else. -/
def FileShrinks (size : Nat) (reads : Nat → FileRead) : Prop :=
  ∃ k, .failed ∉ firstReads reads k ∧ (contentRead (firstReads reads k)).length < size ∧
    ∀ j, k ≤ j → reads j = .data []

theorem firstReads_succ (reads : Nat → FileRead) (k : Nat) :
    firstReads reads (k + 1) = firstReads reads k ++ [reads k] := by
  simp [firstReads, List.range_succ]

theorem firstReads_prefix (reads : Nat → FileRead) {k n : Nat} (h : k ≤ n) :
    firstReads reads k <+: firstReads reads n := by
  obtain ⟨d, rfl⟩ := Nat.exists_eq_add_of_le h
  rw [firstReads, firstReads, List.range_add, List.map_append]
  exact List.prefix_append _ _

theorem failed_mem_firstReads_iff {reads : Nat → FileRead} {k : Nat} :
    .failed ∈ firstReads reads k ↔ ∃ j < k, reads j = .failed := by
  simp [firstReads]

theorem contentRead_append {reads reads' : List FileRead} (h : .failed ∉ reads) :
    contentRead (reads ++ reads') = contentRead reads ++ contentRead reads' := by
  induction reads with
  | nil => rfl
  | cons r reads ih =>
    have hrest : .failed ∉ reads := fun hmem => h (List.mem_cons_of_mem _ hmem)
    cases r with
    | failed => exact absurd List.mem_cons_self h
    | data bs => rw [List.cons_append, contentRead, contentRead, ih hrest, List.append_assoc]

/-- One more result adds its bytes. -/
theorem contentRead_firstReads_succ {reads : Nat → FileRead} {k : Nat}
    (h : .failed ∉ firstReads reads k) :
    contentRead (firstReads reads (k + 1)) =
      contentRead (firstReads reads k) ++ contentRead [reads k] := by
  rw [firstReads_succ, contentRead_append h]

/-- Results that neither fail nor deliver enough deliver nothing any more from some point on. -/
theorem fileShrinks_of_never {size : Nat} {reads : Nat → FileRead}
    (hfails : ∀ k, reads k ≠ .failed)
    (hshort : ∀ k, (contentRead (firstReads reads k)).length < size) : FileShrinks size reads := by
  have hnever : ∀ k, .failed ∉ firstReads reads k := by
    intro k hmem
    obtain ⟨j, -, hj⟩ := failed_mem_firstReads_iff.mp hmem
    exact hfails j hj
  -- the number of bytes grows and is bounded, so it is constant from some point on
  have hmono : Monotone fun k => (contentRead (firstReads reads k)).length := by
    refine monotone_nat_of_le_succ fun k => ?_
    rw [contentRead_firstReads_succ (hnever k), List.length_append]
    exact Nat.le_add_right _ _
  obtain ⟨b, k, hconst⟩ := converges_of_monotone_of_bounded hmono fun n => (hshort n).le
  refine ⟨k, hnever k, hshort k, fun j hj => ?_⟩
  -- the bytes up to `j` and up to `j + 1` are as many
  have hnow := hconst j hj
  have hnext := hconst (j + 1) (Nat.le_succ_of_le hj)
  rw [contentRead_firstReads_succ (hnever j), List.length_append] at hnext
  cases hr : reads j with
  | failed => exact absurd hr (hfails j)
  | data bs =>
    rw [hr, contentRead, contentRead, List.append_nil] at hnext
    rw [List.eq_nil_of_length_eq_zero (by omega : bs.length = 0)]

/-- A file that has become shorter neither fails nor delivers enough, however often it is read. -/
theorem FileShrinks.never {size : Nat} {reads : Nat → FileRead} (h : FileShrinks size reads)
    (k : Nat) :
    .failed ∉ firstReads reads k ∧ (contentRead (firstReads reads k)).length < size := by
  obtain ⟨n, hfails, hshort, hend⟩ := h
  rcases Nat.le_total n k with hle | hle
  · -- behind the end nothing is added
    induction k, hle using Nat.le_induction with
    | base => exact ⟨hfails, hshort⟩
    | succ k hle ih =>
      rw [contentRead_firstReads_succ ih.1, firstReads_succ, hend k hle]
      simpa [contentRead] using ih
  · obtain ⟨rest, hrest⟩ := firstReads_prefix reads hle
    rw [← hrest] at hfails hshort
    have hfirst : .failed ∉ firstReads reads k := fun hmem => hfails (List.mem_append_left _ hmem)
    rw [contentRead_append hfirst, List.length_append] at hshort
    exact ⟨hfirst, (Nat.le_add_right _ _).trans_lt hshort⟩

/-! ## How the loop ends -/

/-- The number of bytes that have been stored into a block. -/
def bytesStored (block : Block) : Nat := (block.log.map Prod.snd).sum

/-- The loop ends with exactly `size` bytes, or on the path of an error. -/
def FileLoop.Ends (size : Nat) : FileLoop → Prop
  | .done block => bytesStored block = size
  | .failed _ => True
  | .spins _ => False

/-- The loop is not left before what is missing has been stored. -/
theorem readFileLoop_stored {size total : Nat} {reads : List FileRead} {block block' : Block}
    (hle : total ≤ size) (h : readFileLoop size reads total block = .done block') :
    bytesStored block' = bytesStored block + (size - total) := by
  induction reads generalizing total block with
  | nil =>
    rw [readFileLoop] at h
    split at h
    · cases h
    · obtain rfl := FileLoop.done.inj h
      omega
  | cons r reads ih =>
    rcases hle.lt_or_eq with hlt | rfl
    · cases r with
      | failed =>
        rw [readFileLoop, if_pos hlt] at h
        cases h
      | data bs =>
        rw [readFileLoop, if_pos hlt] at h
        have htaken : (bs.take (size - total)).length ≤ size - total := List.length_take_le _ _
        have hrest := ih (by omega) h
        have hstored : bytesStored (block.store total (bs.take (size - total))) =
            bytesStored block + (bs.take (size - total)).length := by
          simp [bytesStored]
        rw [hrest, hstored]
        omega
    · rw [readFileLoop_full le_rfl] at h
      obtain rfl := FileLoop.done.inj h
      omega

/-- The loop ends exactly if the results deliver enough, or one of them is an error. -/
theorem readFileLoop_ends_iff (size : Nat) (reads : List FileRead) (junk : Nat → UInt8) :
    (readFileLoop size reads 0 (Block.malloc (size + 1) junk)).Ends size ↔
      size ≤ (contentRead reads).length ∨ .failed ∈ reads := by
  rcases Nat.lt_or_ge (contentRead reads).length size with hlt | hle
  · have htotal : 0 + (contentRead reads).length < size := by rwa [Nat.zero_add]
    by_cases hfails : .failed ∈ reads
    · obtain ⟨block, hloop⟩ := readFileLoop_failed htotal hfails (Block.malloc (size + 1) junk)
      rw [hloop]
      exact iff_of_true trivial (Or.inr hfails)
    · obtain ⟨block, hloop⟩ := readFileLoop_spins htotal hfails (Block.malloc (size + 1) junk)
      rw [hloop]
      exact iff_of_false not_false (not_or.mpr ⟨hlt.not_ge, hfails⟩)
  · obtain ⟨block, hloop, -⟩ := readFileLoop_done reads []
      (Block.holds_nil (Block.malloc (size + 1) junk) 0) (Nat.zero_le size) hle
    rw [List.length_nil] at hloop
    have hstored := readFileLoop_stored (Nat.zero_le size) hloop
    rw [hloop]
    refine iff_of_true ?_ (Or.inl hle)
    rw [FileLoop.Ends, hstored]
    simp [bytesStored]

/-- Some number of results ends the loop exactly if the file does not become shorter. -/
theorem readFileLoop_ends_eventually_iff (size : Nat) (reads : Nat → FileRead)
    (junk : Nat → UInt8) :
    (∃ k, (readFileLoop size (firstReads reads k) 0 (Block.malloc (size + 1) junk)).Ends size) ↔
      ¬ FileShrinks size reads := by
  simp only [readFileLoop_ends_iff]
  constructor
  · rintro ⟨k, hk⟩ hshrinks
    obtain ⟨hfails, hshort⟩ := hshrinks.never k
    exact hk.elim hshort.not_ge hfails
  · -- results that never end the loop are those of a file that has become shorter
    intro hn
    by_contra hnever
    refine hn (fileShrinks_of_never (fun j hj => ?_) fun k => ?_)
    · refine hnever ⟨j + 1, Or.inr ?_⟩
      exact failed_mem_firstReads_iff.mpr ⟨j, Nat.lt_succ_self j, hj⟩
    · exact not_le.mp fun hle => hnever ⟨k, Or.inl hle⟩

/-! ## The loop in the handler -/

/-- The answers of the system, with the first `k` of these results for the file. -/
def WriteEnv.withReads (env : WriteEnv) (reads : Nat → FileRead) (k : Nat) : WriteEnv :=
  { env with reads := firstReads reads k }

/-- The request is for a file of `size` bytes, and there is memory for everything that is needed
before it is read. -/
structure WriteEnv.ReachesLoop (env : WriteEnv) (data : ClientHttpData) (request : HTTPRequest)
    (size : Nat) : Prop where
  threadResult : env.threadResult = true
  asked : data.request = some request
  namesFile : env.NamesFile request.line.uri
  fileSize : env.fileSize request.line.uri = some size
  prepared : env.Prepared
  fileContent : env.fileContent = true

/-- What is done up to the loop. -/
def fileOpened (uri : List UInt8) : List Effect :=
  acquired ++ [.lock .lockFile, .openFile (resourcesFolder ++ uri)]

/-- The loop ends, and the next that is done is to close the file and to unlock `lock_file`. -/
structure WriteEnv.LoopReleases (env : WriteEnv) (data : ClientHttpData) (uri : List UInt8)
    (size : Nat) : Prop where
  ends : (readFileLoop size env.reads 0 (Block.malloc (size + 1) env.junk)).Ends size
  released : fileOpened uri ++ [.close (env.openFile (resourcesFolder ++ uri)),
    .unlock .lockFile] <+: (handleClientHttpWrite env (some data)).effects

section

variable {env : WriteEnv} {data : ClientHttpData} {request : HTTPRequest} {size : Nat}

theorem WriteEnv.ReachesLoop.withReads (h : env.ReachesLoop data request size)
    (reads : Nat → FileRead) (k : Nat) :
    (env.withReads reads k).ReachesLoop data request size where
  threadResult := h.threadResult
  asked := h.asked
  namesFile := h.namesFile
  fileSize := h.fileSize
  prepared := ⟨h.prepared.sizeStr, h.prepared.response, h.prepared.usable⟩
  fileContent := h.fileContent

/-- A request that gets to the loop is answered at one of the exits for an open file. -/
theorem WriteEnv.ReachesLoop.exit (h : env.ReachesLoop data request size) :
    ∃ extension, FileExit env data (fileOpened request.line.uri) extension
      (env.openFile (resourcesFolder ++ request.line.uri)) size
      (handleClientHttpWrite env (some data)) := by
  have hexit := handleClientHttpWrite_exit env data
  generalize handleClientHttpWrite env (some data) = run at hexit ⊢
  cases hexit with
  | noResult hresult => exact absurd (hresult.symm.trans h.threadResult) Bool.false_ne_true
  | noRequest _ hnone =>
    exact absurd (h.asked.symm.trans hnone) (Option.some_ne_none _)
  | request _ hrequest hexit =>
    obtain rfl := Option.some.inj (h.asked.symm.trans hrequest)
    cases hexit with
    | badRequest hbad => exact absurd h.namesFile (not_namesFile_of_badRequest hbad)
    | noPath _ _ hpath => exact absurd (hpath.symm.trans h.namesFile.2.1) Bool.false_ne_true
    | file _ hlast hsize hexit =>
      obtain rfl := Option.some.inj (h.fileSize.symm.trans hsize)
      exact ⟨_, hexit⟩
    | notFound _ hsize =>
      exact absurd (h.fileSize.symm.trans hsize) (Option.some_ne_none _)
    | ofTwoMinds _ _ hsize =>
      exact absurd (h.fileSize.symm.trans hsize) (Option.some_ne_none _)
    | listing hslash => exact absurd hslash (ne_slash_of_namesFile h.namesFile)

/-- Behind a loop that ends, on either way, the file is closed and `lock_file` unlocked. -/
theorem FileExit.released {effects : List Effect} {extension : List UInt8} {fd : Int}
    {run : WriteRun} (h : FileExit env data effects extension fd size run)
    (hprepared : env.Prepared)
    (hends : size ≤ (contentRead env.reads).length ∨ .failed ∈ env.reads) :
    effects ++ [.close fd, .unlock .lockFile] <+: run.effects := by
  cases h with
  | noSizeStr blocks hsize =>
    exact absurd (hsize.symm.trans hprepared.sizeStr) Bool.false_ne_true
  | notPrepared blocks hn => exact absurd hprepared hn
  | rejected => exact List.prefix_rfl
  | notFreeable => exact List.prefix_rfl
  | spins blocks _ _ hlt hfails => exact absurd hends (not_or.mpr ⟨hlt.not_ge, hfails⟩)
  | notReadable => exact List.prefix_rfl
  | sent blocks =>
    obtain ⟨sent, heffects⟩ := sendResponse_effects env data (env.fileResponse extension size)
      (effects ++ [.close fd, .unlock .lockFile]) blocks
    rw [heffects]
    exact List.prefix_append _ _

theorem WriteEnv.ReachesLoop.loopReleases_iff (h : env.ReachesLoop data request size) :
    env.LoopReleases data request.line.uri size ↔
      (readFileLoop size env.reads 0 (Block.malloc (size + 1) env.junk)).Ends size := by
  constructor
  · exact fun hrel => hrel.ends
  · intro hends
    obtain ⟨extension, hexit⟩ := h.exit
    exact ⟨hends, hexit.released h.prepared
      ((readFileLoop_ends_iff _ _ _).mp hends)⟩

/-- Some number of results ends the loop, with `st_size` bytes or on the path of an error, and
with `lock_file` unlocked behind it, exactly if the file does not become shorter. -/
theorem file_loop_ends_iff (h : env.ReachesLoop data request size) (reads : Nat → FileRead) :
    (∃ k, (env.withReads reads k).LoopReleases data request.line.uri size) ↔
      ¬ FileShrinks size reads := by
  rw [← readFileLoop_ends_eventually_iff size reads env.junk]
  exact exists_congr fun k => (h.withReads reads k).loopReleases_iff

end

/-- A request for a file of two bytes. -/
def helloRequest : HTTPRequest :=
  ⟨⟨bytes "GET", bytes "/a.txt", bytes "HTTP/1.1"⟩, [], none, 0⟩

theorem ideal_reachesLoop :
    (WriteEnv.ideal 5 (bytes "hi")).ReachesLoop ⟨4, some helloRequest, none⟩ helloRequest 2 where
  threadResult := rfl
  asked := rfl
  namesFile := ⟨by decide, rfl, by decide⟩
  fileSize := by decide
  prepared := ⟨rfl, rfl, rfl, fun _ => rfl⟩
  fileContent := rfl

/-- Each call reads one byte, so the file does not become shorter. -/
theorem file_loop_ends_hello :
    ∃ k, ((WriteEnv.ideal 5 (bytes "hi")).withReads (fun _ => .data [104]) k).LoopReleases
      ⟨4, some helloRequest, none⟩ helloRequest.line.uri 2 := by
  apply (file_loop_ends_iff ideal_reachesLoop fun _ => .data [104]).mpr
  rintro ⟨k, -, -, hempty⟩
  have hbyte := hempty k le_rfl
  cases hbyte

/-- A file that `fstat` has found two bytes long is empty when it is read: the handler never gets
out of the loop, and `lock_file` stays locked. -/
theorem file_loop_spins :
    ¬ ∃ k, ((WriteEnv.ideal 5 (bytes "hi")).withReads (fun _ => .data []) k).LoopReleases
      ⟨4, some helloRequest, none⟩ helloRequest.line.uri 2 := by
  rintro ⟨k, hk⟩
  have hshrinks : FileShrinks 2 fun _ => .data [] := ⟨0, by decide, by decide, fun _ _ => rfl⟩
  exact (readFileLoop_ends_eventually_iff 2 _ _).mp ⟨k, hk.ends⟩ hshrinks

end SelectServer
