import SelectServer.Server.ReadLoop
import SelectServer.Server.ResponseEnd

/-!
# The buffers of the write handler

`handle_client_http_write` computes the size of each of its buffers in one place and fills it in
another. The path and the content of a file always fit. The text of a length has the size of an
`int` and holds three digits and a NUL; the listing has room for the names that the first pass
over the folder counts, and is filled with those that the second one finds.

So all writes of a run stay inside their buffers, and the `Content-Length` of the listing is the
number of bytes sent for it, exactly if lengths have at most three digits and both passes count
the same (`writes_fit_iff`).
-/

namespace SelectServer

open CLib

/-! ## The text of a length -/

/-- A length that fits into the block for its text. -/
theorem sizeStrBlock_inBounds_iff (env : WriteEnv) (n : Nat) :
    (sizeStrBlock env n).InBounds ↔ n < 1000 := by
  rw [sizeStrBlock, formatInt_natCast, Block.inBounds_store_iff, Block.size_malloc,
    List.length_append, List.length_singleton, sizeofInt, Nat.zero_add]
  rw [and_iff_right (Block.inBounds_malloc _ _)]
  rcases Nat.eq_zero_or_pos n with rfl | hpos
  · exact iff_of_true (by decide) (by decide)
  · have hlength := lt_length_decimal_iff (k := 3) hpos
    rw [show 10 ^ 3 = 1000 from rfl] at hlength
    omega

/-! ## The content of a file -/

/-- The block of a loop over `read`. -/
def FileLoop.block : FileLoop → Block
  | .done block | .failed block | .spins block => block

/-- The loop stores no byte behind the size of the file. -/
theorem readFileLoop_inBounds {size total : Nat} (reads : List FileRead) {block : Block}
    (hle : total ≤ size) (hsize : block.size = size + 1) (hin : block.InBounds) :
    (readFileLoop size reads total block).block.InBounds ∧
      (readFileLoop size reads total block).block.size = size + 1 := by
  induction reads generalizing total block with
  | nil =>
    rw [readFileLoop]
    split
    · exact ⟨hin, hsize⟩
    · exact ⟨hin, hsize⟩
  | cons r reads ih =>
    rcases hle.lt_or_eq with hlt | rfl
    · cases r with
      | failed =>
        rw [readFileLoop, if_pos hlt]
        exact ⟨hin, hsize⟩
      | data bs =>
        rw [readFileLoop, if_pos hlt]
        have htaken : (bs.take (size - total)).length ≤ size - total := List.length_take_le _ _
        apply ih (by omega)
        · rw [Block.size_store, hsize]
        · rw [Block.inBounds_store_iff, hsize]
          exact ⟨hin, by omega⟩
    · rw [readFileLoop_full le_rfl]
      exact ⟨hin, hsize⟩

/-! ## The listing -/

/-- The bytes that the names take in the listing. -/
def listingLength (entries : List DirEntry) : Nat :=
  ((regularNames entries).map fun name => name.length + 2).sum

/-- The first pass counts these bytes in an `int`. -/
theorem listingSize_eq (entries : List DirEntry) :
    listingSize entries = toInt32 (listingLength entries) := by
  rw [listingSize, listingLength]
  congr 1
  induction regularNames entries with
  | nil => rfl
  | cons name names ih =>
    rw [List.map_cons, List.map_cons, List.sum_cons, List.sum_cons, ih]
    push_cast
    rfl

/-- The text of the listing. -/
def listingText (names : List (List UInt8)) : List UInt8 := names.flatMap (· ++ crlf)

theorem length_listingText (names : List (List UInt8)) :
    (listingText names).length = (names.map fun name => name.length + 2).sum := by
  induction names with
  | nil => rfl
  | cons name names ih =>
    rw [listingText, List.flatMap_cons, List.length_append, ← listingText, ih, List.length_append,
      List.map_cons, List.sum_cons]
    rfl

@[simp] theorem size_concatNames (names : List (List UInt8)) (block : Block) (offset : Nat) :
    (concatNames block offset names).size = block.size := by
  induction names generalizing block offset with
  | nil => rfl
  | cons name names ih => rw [concatNames, ih, Block.size_store, Block.size_store]

theorem length_listingText_cons (name : List UInt8) (names : List (List UInt8)) :
    (listingText (name :: names)).length = name.length + 2 + (listingText names).length := by
  rw [length_listingText, length_listingText, List.map_cons, List.sum_cons]

/-- Each name is followed by a line ending and a terminator; the last terminator is the one that
has to fit. -/
theorem concatNames_inBounds_iff (names : List (List UInt8)) (block : Block) (offset : Nat) :
    (concatNames block offset names).InBounds ↔
      block.InBounds ∧ (names = [] ∨ offset + (listingText names).length < block.size) := by
  induction names generalizing block offset with
  | nil => exact (and_iff_left (Or.inl rfl)).symm
  | cons name names ih =>
    have hend : (crlf ++ [0]).length = 3 := rfl
    have hnil : names = [] → (listingText names).length = 0 := by
      rintro rfl
      rfl
    have hcons : ¬ name :: names = [] := List.cons_ne_nil name names
    rw [concatNames, ih, Block.inBounds_store_iff, Block.inBounds_store_iff, hend,
      List.length_append, List.length_singleton, length_listingText_cons, or_iff_right hcons]
    simp only [Block.size_store]
    constructor
    · rintro ⟨⟨⟨hin, -⟩, hfits⟩, hrest⟩
      refine ⟨hin, ?_⟩
      rcases hrest with hempty | hlt
      · have := hnil hempty
        omega
      · omega
    · rintro ⟨hin, hlt⟩
      exact ⟨⟨⟨hin, by omega⟩, by omega⟩, Or.inr (by omega)⟩

/-- The names stand in the block one behind the other, with a terminator behind the last one. -/
theorem concatNames_holds (names : List (List UInt8)) {block : Block} {before : List UInt8}
    (h : block.Holds 0 (before ++ [0])) :
    (concatNames block before.length names).Holds 0 (before ++ listingText names ++ [0]) := by
  induction names generalizing block before with
  | nil => simpa [concatNames, listingText] using h
  | cons name names ih =>
    have hname := h.left.concat (name ++ [0]) (Nat.zero_add _)
    rw [← List.append_assoc] at hname
    have hline := hname.left.concat (crlf ++ [0]) (Nat.zero_add _)
    rw [← List.append_assoc, List.length_append] at hline
    have hlength : (before ++ name ++ crlf).length = before.length + name.length + 2 := by
      rw [List.length_append, List.length_append]
      rfl
    have hrest := ih hline
    rw [hlength] at hrest
    rw [concatNames]
    simpa [listingText, List.append_assoc] using hrest

/-- The listing fits into its block exactly if the second pass does not find more than the first
one has counted. -/
theorem listingBlock_inBounds_iff (junk : Nat → UInt8) (bodySize : Nat)
    (entries : List DirEntry) :
    (listingBlock junk bodySize entries).InBounds ↔ listingLength entries ≤ bodySize := by
  have hempty : ((Block.malloc (bodySize + 1) junk).store 0 [0]).InBounds := by
    rw [Block.inBounds_store_iff, Block.size_malloc]
    exact ⟨Block.inBounds_malloc _ _, Nat.le_add_left 1 bodySize⟩
  rw [listingBlock, Block.inBounds_store_iff, concatNames_inBounds_iff, size_concatNames,
    Block.size_store, Block.size_malloc, length_listingText, ← listingLength, Nat.zero_add,
    Nat.lt_succ_iff, List.length_singleton, and_iff_left le_rfl, and_iff_right hempty]
  refine or_iff_right_of_imp fun hnil => ?_
  rw [listingLength, hnil]
  exact Nat.zero_le bodySize

/-- A listing that fits is the names of the second pass. -/
theorem cstr_listing {env : WriteEnv} {first second : List DirEntry}
    (hnul : ∀ e ∈ second, 0 ∉ e.name)
    (hfits : listingLength second ≤ (listingSize first).toNat) :
    cstr (env.listing first second) = listingText (regularNames second) := by
  have hlength := length_listingText (regularNames second)
  rw [← listingLength] at hlength
  have htext : 0 ∉ listingText (regularNames second) := by
    intro hzero
    obtain ⟨name, hname, hmem⟩ := List.mem_flatMap.mp hzero
    obtain ⟨e, he, rfl⟩ := List.mem_map.mp hname
    rcases List.mem_append.mp hmem with hin | hin
    · exact hnul e (List.mem_of_mem_filter he) hin
    · exact absurd hin (by decide)
  have hempty : ((Block.malloc ((listingSize first).toNat + 1) env.junk).store 0 [0]).Holds 0
      ([] ++ [0]) := Block.holds_store_self _ 0 [0]
  have hheld := concatNames_holds (regularNames second) hempty
  rw [List.length_nil, List.nil_append] at hheld
  rw [WriteEnv.listing, listingBlock]
  rcases hfits.lt_or_eq with hlt | heq
  · -- the last `strcat` has put its terminator inside the listing
    have hstored := hheld.store (listingSize first).toNat [0] (Or.inl (by simp; omega))
    rw [hstored.read_eq_append (by simp; omega), List.append_assoc, List.singleton_append,
      cstr_append_nul, cstr_eq_self htext]
  · have hstored := hheld.left.store (listingSize first).toNat [0] (Or.inl (by omega))
    have hread := hstored.read
    rw [hlength, heq] at hread
    rw [hread, cstr_eq_self htext]

/-! ## The buffers of each branch -/

/-- The text of a length is written: there is memory for it, and an array of headers to begin
with. -/
def WriteEnv.WritesSize (env : WriteEnv) : Prop := env.sizeStr = true ∧ env.headers = true

instance (env : WriteEnv) : Decidable env.WritesSize := inferInstanceAs (Decidable (_ ∧ _))

/-- The block for the text of a length, if it is written. -/
def WriteEnv.sizeBlocks (env : WriteEnv) (size : Int) : List Block :=
  if env.WritesSize then [sizeStrBlock env size] else []

section

variable {env : WriteEnv} {data : ClientHttpData} {effects : List Effect} {blocks : List Block}

theorem sizeBlocks_of_not (h : ¬ env.sizeStr = true) (size : Int) : env.sizeBlocks size = [] :=
  if_neg fun hw => h hw.1

theorem sizeBlocks_of_sizeStr (h : env.sizeStr = true) (blocks : List Block) (size : Int) :
    (if env.headers then blocks ++ [sizeStrBlock env size] else blocks) =
      blocks ++ env.sizeBlocks size := by
  rw [WriteEnv.sizeBlocks]
  by_cases hheaders : env.headers = true
  · have hw : env.WritesSize := ⟨h, hheaders⟩
    rw [if_pos hheaders, if_pos hw]
  · have hn : ¬ env.WritesSize := fun hw => hheaders hw.2
    rw [if_neg hheaders, if_neg hn, List.append_nil]

theorem sizeBlocks_inBounds_iff (n : Nat) :
    (∀ b ∈ env.sizeBlocks n, b.InBounds) ↔ (env.WritesSize → n < 1000) := by
  rw [WriteEnv.sizeBlocks]
  by_cases hw : env.WritesSize
  · simp [hw, sizeStrBlock_inBounds_iff]
  · simp [hw]

theorem respondStatus_blocks (statusCode : Int) (reasonPhrase : List UInt8) :
    (respondStatus env data statusCode reasonPhrase effects blocks).blocks = blocks := by
  unfold respondStatus
  split
  · rfl
  · exact sendResponse_blocks _

/-- The branch for an open file fills the text of its size and the block of its content. -/
theorem serveFile_blocks (env : WriteEnv) (data : ClientHttpData) (extension : List UInt8)
    (fd : Int) (size : Nat) (effects : List Effect) (blocks : List Block) :
    ∃ content, (serveFile env data extension fd size effects blocks).blocks =
        blocks ++ env.sizeBlocks size ++ content ∧ ∀ b ∈ content, b.InBounds := by
  obtain ⟨hin, hsize⟩ := readFileLoop_inBounds env.reads (Nat.zero_le size)
    (Block.size_malloc (size + 1) env.junk) (Block.inBounds_malloc _ _)
  by_cases hstr : env.sizeStr = true
  · simp only [serveFile, if_pos hstr, sizeBlocks_of_sizeStr hstr]
    split
    · split
      · generalize readFileLoop size env.reads 0 (Block.malloc (size + 1) env.junk) = loop at *
        cases loop with
        | spins block => exact ⟨[block], rfl, by simpa [FileLoop.block] using hin⟩
        | failed block => exact ⟨[block], rfl, by simpa [FileLoop.block] using hin⟩
        | done block =>
          have hterminated : (block.store size [0]).InBounds := by
            rw [Block.inBounds_store_iff]
            exact ⟨hin, hsize.ge⟩
          simp only
          split
          · exact ⟨[block.store size [0]], rfl, by simpa using hterminated⟩
          · exact ⟨[block.store size [0]], sendResponse_blocks _, by simpa using hterminated⟩
      · exact ⟨[], (List.append_nil _).symm, by simp⟩
    · exact ⟨[], (List.append_nil _).symm, by simp⟩
  · rw [serveFile, if_neg hstr, sizeBlocks_of_not hstr]
    exact ⟨[], by simp, by simp⟩

theorem serveFile_inBounds_iff (hblocks : ∀ b ∈ blocks, b.InBounds) (extension : List UInt8)
    (fd : Int) (size : Nat) :
    (∀ b ∈ (serveFile env data extension fd size effects blocks).blocks, b.InBounds) ↔
      (env.WritesSize → size < 1000) := by
  obtain ⟨content, hall, hcontent⟩ :=
    serveFile_blocks env data extension fd size effects blocks
  rw [hall, List.forall_mem_append, List.forall_mem_append, sizeBlocks_inBounds_iff,
    and_iff_left hcontent, and_iff_right hblocks]

/-- The block of the path has the size of what is copied into it. -/
theorem pathBlock_inBounds (uri : List UInt8) (junk : Nat → UInt8) :
    ((Block.malloc (resourcesFolder.length + uri.length + 1) junk).store 0
      (resourcesFolder ++ uri ++ [0])).InBounds := by
  rw [Block.inBounds_store_iff, Block.size_malloc, List.length_append, List.length_append,
    List.length_singleton, Nat.zero_add]
  exact ⟨Block.inBounds_malloc _ _, le_rfl⟩

/-- The branch for a file writes its path, and for an open file the two blocks of
`serveFile`. -/
theorem respondFile_inBounds_iff {uri : List UInt8} (hhead : uri.head? = some 47) :
    (∀ b ∈ (respondFile env data uri effects).blocks, b.InBounds) ↔
      (env.NamesFile uri → ∀ size, env.fileSize uri = some size → env.WritesSize →
        size < 1000) := by
  have hpath := pathBlock_inBounds uri env.junk
  by_cases hfull : env.fullPath = true
  · simp only [respondFile, if_pos hfull]
    cases hlast : strrchr 46 (resourcesFolder ++ uri) with
    | none =>
      -- a path without extension is answered before anything else is allocated
      have hdot : 46 ∉ uri := strrchr_fullPath_eq_none_iff.mp hlast
      rw [respondStatus_blocks]
      exact iff_of_true (by simpa using hpath) fun hnames => absurd hnames.2.2 hdot
    | some extension =>
      have hdot : 46 ∈ uri := by
        by_contra hn
        rw [strrchr_fullPath_eq_none_iff.mpr hn] at hlast
        cases hlast
      have hnames : env.NamesFile uri := ⟨hhead, hfull, hdot⟩
      cases hstat : env.fileSize uri with
      | some size =>
        have hopen := hstat
        rw [WriteEnv.fileSize] at hopen
        simp only [hopen]
        rw [serveFile_inBounds_iff (by simpa using hpath)]
        constructor
        · rintro hfits - size' hsize' hw
          obtain rfl := Option.some.inj hsize'
          exact hfits hw
        · exact fun hfits => hfits hnames size rfl
      | none =>
        have hopen := hstat
        rw [WriteEnv.fileSize] at hopen
        simp only [hopen]
        have hvacuous : env.NamesFile uri → ∀ size, (none : Option Nat) = some size →
            env.WritesSize → size < 1000 := fun _ _ hnone => absurd hnone (by simp)
        split
        · rw [respondStatus_blocks]
          exact iff_of_true (by simpa using hpath) hvacuous
        · exact iff_of_true (by simpa using hpath) hvacuous
  · rw [respondFile, if_neg hfull]
    exact iff_of_true (by simp) fun hnames => absurd hnames.2.1 hfull

/-- The branch for the listing fills the block of the listing and the text of its length. -/
theorem respondListing_blocks {first second : List DirEntry} (h : env.Listed first second) :
    (respondListing env data effects).blocks =
      listingBlock env.junk (listingSize first).toNat second ::
        env.sizeBlocks (cstr (env.listing first second)).length := by
  have hbody : env.body = true ∧ 0 ≤ listingSize first := ⟨h.body, h.size⟩
  have hwraps : ¬ (env.body = true ∧ listingSize first = -1) := fun hw =>
    h.not_wraps first second ⟨h.opendir, h.response, hw.1, hw.2⟩
  simp only [respondListing, h.opendir, createHttpResponse_eq (by decide : (0 : Int) < 200)
    h.response, if_neg hwraps, if_pos hbody]
  by_cases hstr : env.sizeStr = true
  · have hblocks := sizeBlocks_of_sizeStr hstr
      [listingBlock env.junk (listingSize first).toNat second]
      (cstr (env.listing first second)).length
    rw [WriteEnv.listing] at hblocks ⊢
    rw [if_pos hstr]
    split
    · exact hblocks
    · split
      · exact hblocks
      · exact (sendResponse_blocks _).trans hblocks
  · rw [if_neg hstr, sizeBlocks_of_not hstr]

theorem respondListing_blocks_of_wraps {first second : List DirEntry}
    (h : env.Wraps first second) :
    (respondListing env data effects).blocks = [(Block.malloc 0 env.junk).store 0 [0]] := by
  have hwraps : env.body = true ∧ listingSize first = -1 := ⟨h.body, h.size⟩
  simp only [respondListing, h.opendir, createHttpResponse_eq (by decide : (0 : Int) < 200)
    h.response, if_pos hwraps]

theorem respondListing_blocks_of_not (h : ∀ first second, ¬ env.Listed first second)
    (hwraps : ∀ first second, ¬ env.Wraps first second) :
    (respondListing env data effects).blocks = [] := by
  cases hfolder : env.opendir with
  | none => simp only [respondListing, hfolder]
  | some passes =>
    obtain ⟨first, second⟩ := passes
    simp only [respondListing, hfolder]
    by_cases hresponse : env.response = true
    · have hbody : ¬ (env.body = true ∧ 0 ≤ listingSize first) := fun hb =>
        h first second ⟨hfolder, hresponse, hb.1, hb.2⟩
      have hempty : ¬ (env.body = true ∧ listingSize first = -1) := fun hb =>
        hwraps first second ⟨hfolder, hresponse, hb.1, hb.2⟩
      simp only [createHttpResponse_eq (by decide : (0 : Int) < 200) hresponse, if_neg hempty,
        if_neg hbody]
    · simp only [createHttpResponse_eq_none hresponse]

/-- The listing stays inside its blocks exactly if it is given one of at least a byte, the second
pass finds no more than the first one, and its length has at most three digits where it is
written. -/
theorem respondListing_inBounds_iff
    (hnul : ∀ first second, env.opendir = some (first, second) → ∀ e ∈ second, 0 ∉ e.name) :
    (∀ b ∈ (respondListing env data effects).blocks, b.InBounds) ↔
      (∀ first second, ¬ env.Wraps first second) ∧
        ∀ first second, env.Listed first second →
          (listingLength second : Int) ≤ listingSize first ∧
            (env.WritesSize → listingLength second < 1000) := by
  by_cases hlisted : ∃ first second, env.Listed first second
  · obtain ⟨first, second, h⟩ := hlisted
    have honly : ∀ {p : List DirEntry → List DirEntry → Prop},
        (∀ first' second', env.Listed first' second' → p first' second') ↔ p first second := by
      intro p
      refine ⟨fun hall => hall first second h, fun hp first' second' h' => ?_⟩
      obtain ⟨rfl, rfl⟩ := Prod.mk.inj (Option.some.inj (h.opendir.symm.trans h'.opendir))
      exact hp
    have hnonneg := h.size
    rw [honly, and_iff_right h.not_wraps, respondListing_blocks h, List.forall_mem_cons,
      listingBlock_inBounds_iff, sizeBlocks_inBounds_iff]
    have hle : listingLength second ≤ (listingSize first).toNat ↔
        (listingLength second : Int) ≤ listingSize first := by omega
    rw [hle]
    refine and_congr_right fun hfits => ?_
    rw [cstr_listing (hnul first second h.opendir) (hle.mpr hfits), length_listingText,
      ← listingLength]
  · have hnone : ∀ first second, ¬ env.Listed first second :=
      fun first second h => hlisted ⟨first, second, h⟩
    rw [and_iff_left fun first second h => absurd h (hnone first second)]
    by_cases hwraps : ∃ first second, env.Wraps first second
    · obtain ⟨first, second, h⟩ := hwraps
      -- the NUL of the empty string is the first byte behind the block
      have hout : ¬ ((Block.malloc 0 env.junk).store 0 [0]).InBounds := by
        rw [Block.inBounds_store_iff, Block.size_malloc]
        exact fun hin => absurd hin.2 (by decide)
      rw [respondListing_blocks_of_wraps h, List.forall_mem_singleton]
      exact iff_of_false hout fun hn => hn first second h
    · have hn : ∀ first second, ¬ env.Wraps first second :=
        fun first second h => hwraps ⟨first, second, h⟩
      rw [respondListing_blocks_of_not hnone hn]
      exact iff_of_true (by simp) hn

end

/-! ## The run of a request -/

/-- The `Content-Length` of a response, if it has one, is the number of body bytes that are
sent. -/
def HTTPMessage.AnnouncesBody {L : Type} (m : HTTPMessage L) : Prop :=
  ∀ v, findHeaderValue m.headers (bytes "Content-Length") = some v → v = formatInt m.bodyLength

/-- All writes of the run lie inside the buffers, and a listing that is sent announces the bytes
of its body. -/
structure WriteEnv.WritesFit (env : WriteEnv) (data : ClientHttpData) (uri : List UInt8) :
    Prop where
  inBounds : ∀ b ∈ (handleClientHttpWrite env (some data)).blocks, b.InBounds
  announced : uri = [47] → ∀ r, env.Responds uri r → r.AnnouncesBody

/-- The answers with which they do: a length that is written has at most three digits, the first
pass over the folder does not count `-1`, and the second one finds as many bytes as it counts, in
an `int`; fewer will do if no length is sent. -/
structure WriteEnv.Fits (env : WriteEnv) (uri : List UInt8) : Prop where
  file : env.NamesFile uri → ∀ size, env.fileSize uri = some size → env.WritesSize → size < 1000
  wraps : uri = [47] → ∀ first second, ¬ env.Wraps first second
  listing : uri = [47] → ∀ first second, env.Listed first second →
    (listingLength second : Int) ≤ toInt32 (listingLength first) ∧
      (env.WritesSize → listingLength second < 1000)
  announced : uri = [47] → ∀ first second, env.SendsListing first second →
    (env.addHeader 1).copies = true →
      (listingLength second : Int) = toInt32 (listingLength first)

/-- The names of the folder are strings. -/
def WriteEnv.NamesTerminated (env : WriteEnv) : Prop :=
  ∀ first second, env.opendir = some (first, second) → ∀ e ∈ second, 0 ∉ e.name

section

variable {env : WriteEnv} {data : ClientHttpData} {request : HTTPRequest}

theorem findHeaderValue_contentLength (env : WriteEnv) (contentType : List UInt8) (size : Int) :
    findHeaderValue (env.headersSent contentType size) (bytes "Content-Length") =
      if (env.addHeader 1).copies then some (formatInt size) else none := by
  have htype : (bytes "Content-Type" == bytes "Content-Length") = false := by decide
  have hclose : (bytes "Connection" == bytes "Content-Length") = false := by decide
  simp only [WriteEnv.headersSent, responseHeaders, addedHeaders]
  cases (env.addHeader 0).copies with
  | false =>
    cases (env.addHeader 1).copies with
    | false => cases (env.addHeader 2).copies <;> simp [findHeaderValue, hclose]
    | true => simp [findHeaderValue]
  | true =>
    cases (env.addHeader 1).copies with
    | false => cases (env.addHeader 2).copies <;> simp [findHeaderValue, htype, hclose]
    | true => simp [findHeaderValue, htype]

theorem formatInt_natCast_inj {m n : Nat} : formatInt m = formatInt n ↔ m = n := by
  rw [formatInt_natCast, formatInt_natCast]
  constructor
  · intro h
    rw [← digitsValue_decimal m, h, digitsValue_decimal]
  · exact fun h => by rw [h]

/-- A listing that fits announces its body exactly if the second pass finds as much as the first
one, or the header is missing. -/
theorem listingResponse_announcesBody_iff {first second : List DirEntry}
    (hlisted : env.Listed first second) (hnul : ∀ e ∈ second, 0 ∉ e.name)
    (hfits : (listingLength second : Int) ≤ listingSize first) :
    (env.listingResponse first second).AnnouncesBody ↔
      ((env.addHeader 1).copies = true → (listingLength second : Int) = listingSize first) := by
  have hnonneg := hlisted.size
  have hsize : ((listingSize first).toNat : Int) = listingSize first := by omega
  have hfind := findHeaderValue_contentLength env (bytes "text/plain") (listingLength second)
  have hlength : (cstr (env.listing first second)).length = listingLength second := by
    rw [cstr_listing hnul (by omega), length_listingText, ← listingLength]
  -- the header has the length of the text, `body_length` the size of the first pass
  have hequal : formatInt (listingLength second) = formatInt (listingSize first) ↔
      (listingLength second : Int) = listingSize first := by
    rw [← hsize, formatInt_natCast_inj]
    omega
  simp only [HTTPMessage.AnnouncesBody, WriteEnv.listingResponse, hlength, hfind]
  by_cases hcopies : (env.addHeader 1).copies = true
  · simp [hcopies, hequal]
  · simp [hcopies]

theorem handleClientHttpWrite_inBounds_iff (hthread : env.threadResult = true)
    (hrequest : data.request = some request) (hnul : env.NamesTerminated) :
    (∀ b ∈ (handleClientHttpWrite env (some data)).blocks, b.InBounds) ↔
      (env.NamesFile request.line.uri → ∀ size, env.fileSize request.line.uri = some size →
        env.WritesSize → size < 1000) ∧
      (request.line.uri = [47] → (∀ first second, ¬ env.Wraps first second) ∧
        ∀ first second, env.Listed first second →
          (listingLength second : Int) ≤ listingSize first ∧
            (env.WritesSize → listingLength second < 1000)) := by
  simp only [handleClientHttpWrite, if_pos hthread, hrequest]
  generalize request.line.uri = uri
  by_cases hfile : uri.head? = some 47 ∧ 1 < uri.length
  · have hslash : uri ≠ [47] := by
      rintro rfl
      exact absurd hfile.2 (by decide)
    rw [if_pos hfile, respondFile_inBounds_iff hfile.1]
    exact (and_iff_left fun h => absurd h hslash).symm
  · have hnames : ¬ env.NamesFile uri := by
      rintro ⟨hhead, -, hdot⟩
      rcases uri with _ | ⟨c, _ | ⟨d, ds⟩⟩
      · exact absurd hdot List.not_mem_nil
      · rw [List.head?_cons, Option.some.injEq] at hhead
        subst hhead
        exact absurd hdot (by decide)
      · exact hfile ⟨hhead, by simp⟩
    rw [if_neg hfile, and_iff_right fun h => absurd h hnames]
    by_cases hslash : uri = [47]
    · subst hslash
      rw [if_pos ⟨rfl, rfl⟩, respondListing_inBounds_iff hnul]
      exact (imp_iff_right rfl).symm
    · have hlisting : ¬ (uri.head? = some 47 ∧ uri.length = 1) := by
        rintro ⟨hhead, hlength⟩
        obtain ⟨c, rfl⟩ := List.length_eq_one_iff.mp hlength
        rw [List.head?_cons, Option.some.injEq] at hhead
        exact hslash (by rw [hhead])
      rw [if_neg hlisting, respondStatus_blocks]
      exact iff_of_true (by simp) fun h => absurd h hslash

/-- All writes of a run stay inside their buffers, and the listing announces its body, exactly if
no length that is written has more than three digits and the two passes over the folder agree. -/
theorem writes_fit_iff (hthread : env.threadResult = true) (hrequest : data.request = some request)
    (hnul : env.NamesTerminated) :
    env.WritesFit data request.line.uri ↔ env.Fits request.line.uri := by
  have hblocks := handleClientHttpWrite_inBounds_iff hthread hrequest hnul
  simp only [listingSize_eq] at hblocks
  have hannounces : ∀ {first second : List DirEntry}, env.SendsListing first second →
      (listingLength second : Int) ≤ toInt32 (listingLength first) →
      ((env.listingResponse first second).AnnouncesBody ↔ ((env.addHeader 1).copies = true →
        (listingLength second : Int) = toInt32 (listingLength first))) := by
    intro first second hsends hfits
    rw [← listingSize_eq] at hfits ⊢
    exact listingResponse_announcesBody_iff hsends.listed
      (hnul first second hsends.listed.opendir) hfits
  constructor
  · intro h
    obtain ⟨hfile, hlisting⟩ := hblocks.mp h.inBounds
    refine ⟨hfile, fun hslash => (hlisting hslash).1, fun hslash => (hlisting hslash).2,
      fun hslash first second hsends => ?_⟩
    have hfits := ((hlisting hslash).2 first second hsends.listed).1
    exact (hannounces hsends hfits).mp (h.announced hslash _ (.listing hslash hsends))
  · intro h
    refine ⟨hblocks.mpr ⟨h.file, fun hslash => ⟨h.wraps hslash, h.listing hslash⟩⟩,
      fun hslash r hr => ?_⟩
    -- only the listing answers this URI
    cases hr with
    | badRequest hbad => exact absurd hslash (ne_slash_of_badRequest hbad)
    | notFound hnames => exact absurd hslash (ne_slash_of_namesFile hnames)
    | file hnames => exact absurd hslash (ne_slash_of_namesFile hnames)
    | listing _ hsends =>
      have hfits := (h.listing hslash _ _ hsends.listed).1
      exact (hannounces hsends hfits).mpr (h.announced hslash _ _ hsends)

end

theorem ideal_namesTerminated (fd : Int) (content : List UInt8) :
    (WriteEnv.ideal fd content).NamesTerminated := by
  intro first second h e he
  obtain ⟨-, rfl⟩ := Prod.mk.inj (Option.some.inj h)
  exact absurd he List.not_mem_nil

/-- The size of a file of two bytes is one digit. -/
theorem writes_fit_hello :
    (WriteEnv.ideal 5 (bytes "hi")).WritesFit ⟨4, some helloRequest, none⟩
      helloRequest.line.uri := by
  apply (writes_fit_iff rfl rfl (ideal_namesTerminated 5 (bytes "hi"))).mpr
  have hslash : helloRequest.line.uri ≠ [47] := by decide
  refine ⟨fun _ size hsize _ => ?_, fun h => absurd h hslash, fun h => absurd h hslash,
    fun h => absurd h hslash⟩
  have htwo : (WriteEnv.ideal 5 (bytes "hi")).fileSize helloRequest.line.uri = some 2 := by decide
  obtain rfl := Option.some.inj (htwo.symm.trans hsize)
  decide

/-- A folder in which the two passes find these entries. -/
def folderEnv (first second : List DirEntry) : WriteEnv :=
  { WriteEnv.ideal 5 [] with opendir := some (first, second) }

/-- A request for the listing. -/
def listingRequest : HTTPRequest :=
  ⟨⟨bytes "GET", bytes "/", bytes "HTTP/1.1"⟩, [], none, 0⟩

/-- The four digits for a file of 1000 bytes and their NUL are stored into the four bytes of an
`int`; a file that is added between the two passes is stored behind the listing; and with one that
is removed the listing announces less than is sent. -/
theorem writes_overrun :
    ¬ (WriteEnv.ideal 5 (List.replicate 1000 65)).WritesFit ⟨4, some helloRequest, none⟩
        (bytes "/a.txt") ∧
      ¬ (folderEnv [] [⟨true, bytes "a"⟩]).WritesFit ⟨4, some listingRequest, none⟩ [47] ∧
      ¬ (folderEnv [⟨true, bytes "a"⟩] []).WritesFit ⟨4, some listingRequest, none⟩ [47] := by
  refine ⟨fun h => ?_, fun h => ?_, fun h => ?_⟩
  · have hnames : (WriteEnv.ideal 5 (List.replicate 1000 65)).NamesFile helloRequest.line.uri :=
      ⟨by decide, rfl, by decide⟩
    have hsize : (WriteEnv.ideal 5 (List.replicate 1000 65)).fileSize helloRequest.line.uri =
        some (List.replicate 1000 (65 : UInt8)).length := if_pos (by decide)
    rw [List.length_replicate] at hsize
    have hfits := ((handleClientHttpWrite_inBounds_iff rfl rfl
      (ideal_namesTerminated 5 _)).mp h.inBounds).1 hnames 1000 hsize ⟨rfl, rfl⟩
    exact Nat.lt_irrefl 1000 hfits
  · have hnul : (folderEnv [] [⟨true, bytes "a"⟩]).NamesTerminated := by
      intro first second h e he
      obtain ⟨-, rfl⟩ := Prod.mk.inj (Option.some.inj h)
      rw [List.mem_singleton.mp he]
      decide
    have hlisted : (folderEnv [] [⟨true, bytes "a"⟩]).Listed [] [⟨true, bytes "a"⟩] :=
      ⟨rfl, rfl, rfl, by decide⟩
    have hfits := (((handleClientHttpWrite_inBounds_iff rfl rfl hnul).mp h.inBounds).2 rfl).2
      _ _ hlisted
    exact absurd hfits.1 (by decide)
  · have hsends : (folderEnv [⟨true, bytes "a"⟩] []).SendsListing [⟨true, bytes "a"⟩] [] :=
      ⟨⟨rfl, rfl, rfl, by decide⟩, rfl, ⟨rfl, fun _ => rfl⟩, ⟨fun _ => rfl, rfl⟩⟩
    have hequal := (listingResponse_announcesBody_iff hsends.listed (by simp)
      (by decide)).mp (h.announced rfl _ (.listing rfl hsends)) rfl
    exact absurd hequal (by decide)

end SelectServer
