import SelectServer.Server.FileResponse

/-!
# The header array of a response, when allocations fail

`handle_client_http_write` ignores the results of its three `add_header` calls, so the array
it goes on with can be NULL, or have a last slot that no call has filled. Two numbers and a
list of slots say less about it than what is in them: the headers added, and the slot left
over (`PackedHeaders`). The array refines that view call by call, and the view tells which
allocations let the array be read, and which let it be freed.
-/

namespace SelectServer

open CLib

/-! ## Arrays with at most one slot left over -/

/-- What a call whose copies fail makes of its slot. -/
def HeaderAlloc.leaves (a : HeaderAlloc) (slot : HeaderSlot) : HeaderSlot :=
  match a.key with
  | none => { slot with key := .null }
  | some keyAddr => ⟨.freed keyAddr, .null⟩

/-- The headers in an array, and the slot behind them that the next call is going to fill. -/
structure PackedHeaders where
  added : List Header
  left : Option HeaderSlot

/-- One `add_header`; the result `none` is an array lost to its `realloc`. -/
def PackedHeaders.add (a : HeaderAlloc) (h : Header) (p : PackedHeaders) :
    Option PackedHeaders :=
  if p.left.isNone && !a.realloc then none
  else if a.copies then some ⟨p.added ++ [h], none⟩
  else some ⟨p.added, some (a.leaves (p.left.getD ⟨.junk, .junk⟩))⟩

/-- The calls one after the other; the result `none` is the use of an array that is lost. -/
def addPackedHeaders (alloc : Nat → HeaderAlloc) :
    Nat → Option PackedHeaders → List Header → Option (Option PackedHeaders)
  | _, p, [] => some p
  | _, none, _ :: _ => none
  | k, some p, h :: hs => addPackedHeaders alloc (k + 1) (p.add (alloc k) h) hs

/-- The array looks like `p`: its slots are those of the headers added and the one left over,
which does not hold a header. -/
def HeaderArray.Packs (arr : HeaderArray) : Option PackedHeaders → Prop
  | none => arr.slots = none
  | some p => ∃ filled : List HeaderSlot, arr.slots = some (filled ++ p.left.toList) ∧
      filled.map HeaderSlot.header? = p.added.map some ∧
      (∀ slot ∈ p.left, slot.header? = none) ∧
      arr.headerIndex = filled.length ∧ arr.headerCount = (filled ++ p.left.toList).length

/-- A slot that a call has left over does not hold a header. -/
theorem HeaderAlloc.header?_leaves (a : HeaderAlloc) (slot : HeaderSlot) :
    (a.leaves slot).header? = none := by
  unfold HeaderAlloc.leaves
  split
  · rfl
  · rfl

/-- The last slot of an array is filled, or left over. -/
theorem fillSlot_packs (a : HeaderAlloc) {filled : List HeaderSlot} {hs : List Header}
    (hfilled : filled.map HeaderSlot.header? = hs.map some) (slot : HeaderSlot) (h : Header) :
    (fillSlot a (filled ++ [slot]) filled.length (filled.length + 1) h.key h.value).2.Packs
      (if a.copies then some ⟨hs ++ [h], none⟩ else some ⟨hs, some (a.leaves slot)⟩) := by
  have hslot : (filled ++ [slot]).getD filled.length ⟨.junk, .junk⟩ = slot := by simp
  have hset : ∀ new, (filled ++ [slot]).set filled.length new = filled ++ [new] := by
    intro new
    simp
  simp only [fillSlot, hslot, hset]
  cases hkey : a.key with
  | none =>
    rw [if_neg (by simp [HeaderAlloc.copies, hkey])]
    refine ⟨filled, ?_, hfilled, ?_, rfl, by simp⟩
    · simp [HeaderAlloc.leaves, hkey]
    · rintro s hs
      obtain rfl := Option.some.inj hs
      exact a.header?_leaves slot
  | some keyAddr =>
    cases hvalue : a.value with
    | none =>
      rw [if_neg (by simp [HeaderAlloc.copies, hvalue])]
      refine ⟨filled, ?_, hfilled, ?_, rfl, by simp⟩
      · simp [HeaderAlloc.leaves, hkey]
      · rintro s hs
        obtain rfl := Option.some.inj hs
        exact a.header?_leaves slot
    | some valueAddr =>
      rw [if_pos (by simp [HeaderAlloc.copies, hkey, hvalue])]
      refine ⟨filled ++ [⟨.live keyAddr h.key, .live valueAddr h.value⟩], by simp, ?_, by simp,
        by simp, by simp⟩
      simp [hfilled, HeaderSlot.header?]

/-- One call of `add_header` on the array is one call on its view. -/
theorem addHeader_packs (a : HeaderAlloc) {arr : HeaderArray} {p : PackedHeaders}
    (harr : arr.Packs (some p)) (h : Header) :
    (addHeader a arr h.key h.value).2.Packs (p.add a h) := by
  obtain ⟨filled, hslots, hfilled, -, hindex, hcount⟩ := harr
  unfold addHeader PackedHeaders.add
  cases hleft : p.left with
  | none =>
    -- the array is full: it has to grow by a slot
    rw [hleft, Option.toList_none, List.append_nil] at hslots hcount
    rw [if_pos (by omega : arr.headerCount ≤ arr.headerIndex)]
    cases hrealloc : a.realloc with
    | false => rfl
    | true =>
      have hresize : resize filled (filled.length + 1) = filled ++ [⟨.junk, .junk⟩] := by
        simp [resize]
      rw [if_pos rfl, if_neg (by simp), hslots, Option.getD_some, hcount, hindex, hresize,
        Option.getD_none]
      exact fillSlot_packs a hfilled _ h
  | some slot =>
    rw [hleft, Option.toList_some] at hslots hcount
    rw [List.length_append, List.length_singleton] at hcount
    rw [if_neg (by omega : ¬ arr.headerCount ≤ arr.headerIndex), if_neg (by simp), hslots,
      Option.getD_some, hcount, hindex, Option.getD_some]
    exact fillSlot_packs a hfilled slot h

/-- The calls on the array refine the calls on its view. -/
theorem addHeaders_packs (alloc : Nat → HeaderAlloc) (hs : List Header) (k : Nat)
    {arr : HeaderArray} {p : Option PackedHeaders} (harr : arr.Packs p) :
    match addPackedHeaders alloc k p hs with
    | none => addHeaders alloc k arr hs = none
    | some q => ∃ arr', addHeaders alloc k arr hs = some arr' ∧ arr'.Packs q := by
  induction hs generalizing k arr p with
  | nil => exact ⟨arr, rfl, harr⟩
  | cons h hs ih =>
    cases p with
    | none =>
      have hnull : arr.slots = none := harr
      simp [addPackedHeaders, addHeaders, hnull]
    | some p =>
      have hsome : arr.slots.isSome := by
        obtain ⟨filled, hslots, -⟩ := harr
        simp [hslots]
      simp only [addPackedHeaders, addHeaders, if_pos hsome]
      exact ih (k + 1) (addHeader_packs (alloc k) harr h)

/-- The headers that calls with these allocations add. -/
def addedHeaders (alloc : Nat → HeaderAlloc) : Nat → List Header → List Header
  | _, [] => []
  | k, h :: hs => (if (alloc k).copies then [h] else []) ++ addedHeaders alloc (k + 1) hs

theorem PackedHeaders.added_of_add {a : HeaderAlloc} {h : Header} {p q : PackedHeaders}
    (hadd : p.add a h = some q) : q.added = p.added ++ if a.copies then [h] else [] := by
  unfold PackedHeaders.add at hadd
  split at hadd
  · exact absurd hadd.symm (Option.some_ne_none q)
  · split at hadd
    · rename_i hcopies
      obtain rfl := Option.some.inj hadd
      rw [if_pos hcopies]
    · rename_i hcopies
      obtain rfl := Option.some.inj hadd
      rw [if_neg hcopies, List.append_nil]

theorem added_of_addPackedHeaders {alloc : Nat → HeaderAlloc} (hs : List Header) {k : Nat}
    {p q : PackedHeaders} (h : addPackedHeaders alloc k (some p) hs = some (some q)) :
    q.added = p.added ++ addedHeaders alloc k hs := by
  induction hs generalizing k p with
  | nil =>
    obtain rfl := Option.some.inj (Option.some.inj h)
    rw [addedHeaders, List.append_nil]
  | cons x xs ih =>
    rw [addPackedHeaders] at h
    cases hadd : p.add (alloc k) x with
    | none =>
      -- nothing comes out of an array that is lost
      rw [hadd] at h
      cases xs with
      | nil => exact absurd (Option.some.inj h).symm (Option.some_ne_none q)
      | cons y ys => exact absurd h.symm (Option.some_ne_none _)
    | some p' =>
      rw [hadd] at h
      rw [ih h, PackedHeaders.added_of_add hadd, addedHeaders, List.append_assoc]

private theorem mapM_of_map_eq {slots : List HeaderSlot} {hs : List Header}
    (h : slots.map HeaderSlot.header? = hs.map some) : slots.mapM HeaderSlot.header? = some hs := by
  induction slots generalizing hs with
  | nil =>
    obtain rfl : hs = [] := by simpa using h.symm
    rfl
  | cons slot slots ih =>
    cases hs with
    | nil => simp at h
    | cons x xs =>
      simp only [List.map_cons, List.cons.injEq] at h
      simp [h.1, ih h.2]

/-- The array can be read when no slot is left over. -/
theorem HeaderArray.Packs.live {arr : HeaderArray} {p : Option PackedHeaders}
    (h : arr.Packs p) :
    arr.live = p.bind fun p => if p.left.isNone then some p.added else none := by
  cases p with
  | none =>
    have hnull : arr.slots = none := h
    simp [HeaderArray.live, hnull]
  | some p =>
    obtain ⟨filled, hslots, hfilled, hdead, -, -⟩ := h
    cases hleft : p.left with
    | none =>
      simp [HeaderArray.live, hslots, hleft, mapM_of_map_eq hfilled]
    | some slot =>
      have hslot : slot.header? = none := hdead slot (by rw [hleft]; rfl)
      simp [HeaderArray.live, hslots, hleft, mapM_of_map_eq hfilled, hslot]

/-- The array can be freed when the slot left over can. -/
theorem HeaderArray.Packs.freeable {arr : HeaderArray} {p : Option PackedHeaders}
    (h : arr.Packs p) :
    arr.freeable = ((p.bind PackedHeaders.left).all fun slot =>
      slot.key.freeable && slot.value.freeable) := by
  cases p with
  | none =>
    have hnull : arr.slots = none := h
    simp [HeaderArray.freeable, hnull]
  | some p =>
    obtain ⟨filled, hslots, hfilled, -, -, -⟩ := h
    -- a slot that holds a header has two live strings
    have hlive : ∀ slot ∈ filled, (slot.key.freeable && slot.value.freeable) = true := by
      intro slot hslot
      have hmem : slot.header? ∈ p.added.map some := by
        rw [← hfilled]
        exact List.mem_map_of_mem hslot
      obtain ⟨x, -, hx⟩ := List.mem_map.mp hmem
      unfold HeaderSlot.header? at hx
      split at hx
      · rfl
      · simp at hx
    have hall : (filled.all fun slot => slot.key.freeable && slot.value.freeable) = true :=
      List.all_eq_true.mpr hlive
    cases hleft : p.left with
    | none => simp [HeaderArray.freeable, hslots, hleft, hall]
    | some slot => simp [HeaderArray.freeable, hslots, hleft, hall]

/-! ## The three calls of the handler -/

/-- The call behind call `k` gets memory for another slot if call `k` has filled the array. -/
def WriteEnv.Grows (env : WriteEnv) (k : Nat) : Prop :=
  (env.addHeader k).copies = true → (env.addHeader (k + 1)).realloc = true

/-- No call is given a NULL array. -/
def WriteEnv.HeadersUsable (env : WriteEnv) : Prop := env.headers = true ∧ env.Grows 0

/-- The calls leave no slot over, and the last one does not lose the array. -/
def WriteEnv.HeadersComplete (env : WriteEnv) : Prop :=
  env.Grows 1 ∧ (env.addHeader 2).copies = true

/-- The last call loses the array, fills it, or leaves two NULL pointers: its key fails, and the
value was zero from the start or an earlier call has set it. -/
def WriteEnv.HeadersFreeable (env : WriteEnv) : Prop :=
  ¬ env.Grows 1 ∨ (env.addHeader 2).copies = true ∨
    (env.addHeader 2).key = none ∧ (env.addHeader 1).copies = false ∧
      ((env.addHeader 1).key.isSome = true ∨ (env.addHeader 0).copies = false)

/-- The array that `create_headers` returns. -/
theorem createHeaders_packs :
    HeaderArray.Packs ⟨some (createHeaders initialHeaderCount), 0, initialHeaderCount⟩
      (some ⟨[], some ⟨.null, .null⟩⟩) := by
  refine ⟨[], rfl, rfl, ?_, rfl, rfl⟩
  rintro slot hslot
  obtain rfl := Option.some.inj hslot
  rfl

/-- The last header of a response. -/
def connectionClose : Header := ⟨bytes "Connection", bytes "close"⟩

/-- The view of the array that `create_headers` and the three calls build. -/
def WriteEnv.packedHeaders (env : WriteEnv) (contentType : List UInt8) (size : Int) :
    Option (Option PackedHeaders) :=
  addPackedHeaders env.addHeader 0 (if env.headers then some ⟨[], some ⟨.null, .null⟩⟩ else none)
    (responseHeaders contentType size)

theorem HeaderAlloc.freeable_leaves (a : HeaderAlloc) (slot : HeaderSlot) :
    ((a.leaves slot).key.freeable && (a.leaves slot).value.freeable) = true ↔
      a.key = none ∧ slot.value.freeable = true := by
  unfold HeaderAlloc.leaves
  split
  · rename_i hkey
    simp [StrPtr.freeable, hkey]
  · rename_i hkey
    simp [StrPtr.freeable, hkey]

section

variable (env : WriteEnv) (contentType : List UInt8) (size : Int)

theorem buildHeaders_packs :
    match env.packedHeaders contentType size with
    | none => buildHeaders env contentType size = none
    | some q => ∃ arr, buildHeaders env contentType size = some arr ∧ arr.Packs q := by
  apply addHeaders_packs
  cases env.headers with
  | false => rfl
  | true => exact createHeaders_packs

theorem packedHeaders_of_not_usable (h : ¬ env.HeadersUsable) :
    env.packedHeaders contentType size = none := by
  simp only [WriteEnv.HeadersUsable, WriteEnv.Grows, not_and, Classical.not_imp,
    Bool.not_eq_true] at h
  simp only [WriteEnv.packedHeaders, responseHeaders]
  cases hheaders : env.headers with
  | false => simp [addPackedHeaders]
  | true =>
    obtain ⟨hfirst, hrealloc⟩ := h hheaders
    simp [addPackedHeaders, PackedHeaders.add, hfirst, hrealloc]

/-- The array in front of the third call: full, or with a slot that is left over. -/
theorem packedHeaders_of_usable (h : env.HeadersUsable) :
    ∃ p : PackedHeaders, env.packedHeaders contentType size =
        some (p.add (env.addHeader 2) connectionClose) ∧
      (p.left = none ∧ (env.addHeader 1).copies = true ∨
        ∃ slot, p.left = some slot ∧ (env.addHeader 1).copies = false ∧
          (slot.value.freeable = true ↔
            (env.addHeader 1).key.isSome = true ∨ (env.addHeader 0).copies = false)) := by
  obtain ⟨hheaders, hgrows⟩ := h
  -- the second call writes to the slot of the first one, or to a new one
  obtain ⟨p, hp, hslot⟩ : ∃ p : PackedHeaders,
      env.packedHeaders contentType size = some ((if (env.addHeader 1).copies = true then
          (⟨p.added ++ [⟨bytes "Content-Length", formatInt size⟩], none⟩ : PackedHeaders)
        else ⟨p.added, some ((env.addHeader 1).leaves (p.left.getD ⟨.junk, .junk⟩))⟩).add
          (env.addHeader 2) connectionClose) ∧
      ((p.left.getD ⟨.junk, .junk⟩).value.freeable = true ↔ (env.addHeader 0).copies = false) := by
    simp only [WriteEnv.packedHeaders, responseHeaders, hheaders, if_true, addPackedHeaders]
    cases hfirst : (env.addHeader 0).copies with
    | false =>
      refine ⟨⟨[], some ((env.addHeader 0).leaves ⟨.null, .null⟩)⟩, ?_, ?_⟩
      · cases hsecond : (env.addHeader 1).copies with
        | false => simp [addPackedHeaders, PackedHeaders.add, hfirst, hsecond, connectionClose]
        | true => simp [addPackedHeaders, PackedHeaders.add, hfirst, hsecond, connectionClose]
      · simp only [Option.getD_some, HeaderAlloc.leaves, iff_true]
        cases (env.addHeader 0).key with
        | none => rfl
        | some _ => rfl
    | true =>
      -- the first slot is taken, so the second call has made the array grow
      have hrealloc := hgrows hfirst
      refine ⟨⟨[⟨bytes "Content-Type", contentType⟩], none⟩, ?_, ?_⟩
      · cases hsecond : (env.addHeader 1).copies with
        | false =>
          simp [addPackedHeaders, PackedHeaders.add, hfirst, hsecond, hrealloc, connectionClose]
        | true =>
          simp [addPackedHeaders, PackedHeaders.add, hfirst, hsecond, hrealloc, connectionClose]
      · simp [StrPtr.freeable]
  cases hsecond : (env.addHeader 1).copies with
  | false =>
    rw [hsecond, if_neg Bool.false_ne_true] at hp
    refine ⟨_, hp, Or.inr ⟨_, rfl, rfl, ?_⟩⟩
    cases hkey : (env.addHeader 1).key with
    | none => simpa [HeaderAlloc.leaves, hkey] using hslot
    | some _ => simp [HeaderAlloc.leaves, hkey, StrPtr.freeable]
  | true =>
    rw [hsecond, if_pos rfl] at hp
    exact ⟨_, hp, Or.inl ⟨rfl, rfl⟩⟩

theorem buildHeaders_eq_none_iff :
    buildHeaders env contentType size = none ↔ ¬ env.HeadersUsable := by
  have hbuild := buildHeaders_packs env contentType size
  by_cases h : env.HeadersUsable
  · obtain ⟨p, hp, -⟩ := packedHeaders_of_usable env contentType size h
    simp only [hp] at hbuild
    obtain ⟨arr, harr, -⟩ := hbuild
    simp [harr, h]
  · simp only [packedHeaders_of_not_usable env contentType size h] at hbuild
    simp [hbuild, h]

end

variable {env : WriteEnv} {contentType : List UInt8} {size : Int} {arr : HeaderArray}

theorem usable_of_buildHeaders (h : buildHeaders env contentType size = some arr) :
    env.HeadersUsable := by
  by_contra hn
  rw [(buildHeaders_eq_none_iff env contentType size).mpr hn] at h
  exact Option.some_ne_none _ h.symm

/-- The array after the third call. -/
theorem packs_of_buildHeaders (h : buildHeaders env contentType size = some arr) :
    ∃ p : PackedHeaders, arr.Packs (p.add (env.addHeader 2) connectionClose) ∧
      env.packedHeaders contentType size = some (p.add (env.addHeader 2) connectionClose) ∧
      (p.left = none ∧ (env.addHeader 1).copies = true ∨
        ∃ slot, p.left = some slot ∧ (env.addHeader 1).copies = false ∧
          (slot.value.freeable = true ↔
            (env.addHeader 1).key.isSome = true ∨ (env.addHeader 0).copies = false)) := by
  have hbuild := buildHeaders_packs env contentType size
  obtain ⟨p, hp, hleft⟩ :=
    packedHeaders_of_usable env contentType size (usable_of_buildHeaders h)
  simp only [hp] at hbuild
  obtain ⟨arr', harr', hpacks⟩ := hbuild
  obtain rfl : arr = arr' := Option.some.inj (h.symm.trans harr')
  exact ⟨p, hpacks, hp, hleft⟩

theorem PackedHeaders.add_of_complete (h : env.HeadersComplete) {p : PackedHeaders}
    (hleft : p.left = none → (env.addHeader 1).copies = true) (x : Header) :
    p.add (env.addHeader 2) x = some ⟨p.added ++ [x], none⟩ := by
  have hgrows : ¬ ((p.left.isNone && !(env.addHeader 2).realloc) = true) := by
    rw [Bool.and_eq_true, Option.isNone_iff_eq_none, Bool.not_eq_true']
    rintro ⟨hnone, hrealloc⟩
    have hgrown := h.1 (hleft hnone)
    rw [hrealloc] at hgrown
    exact Bool.false_ne_true hgrown
  rw [PackedHeaders.add, if_neg hgrows, if_pos h.2]

/-- The headers that the array gives to the response. -/
def WriteEnv.headersSent (env : WriteEnv) (contentType : List UInt8) (size : Int) :
    List Header :=
  addedHeaders env.addHeader 0 (responseHeaders contentType size)

/-- An array that can be read holds the headers that its calls have added. -/
theorem live_buildHeaders (h : buildHeaders env contentType size = some arr)
    (hcomplete : env.HeadersComplete) :
    arr.live = some (env.headersSent contentType size) := by
  obtain ⟨p, hpacks, hp, hleft⟩ := packs_of_buildHeaders h
  have hfull : p.left = none → (env.addHeader 1).copies = true := by
    intro hnone
    rcases hleft with ⟨-, hcopies⟩ | ⟨slot, hslot, -⟩
    · exact hcopies
    · rw [hnone] at hslot
      exact absurd hslot.symm (Option.some_ne_none slot)
  rw [PackedHeaders.add_of_complete hcomplete hfull] at hpacks hp
  rw [WriteEnv.packedHeaders, if_pos (usable_of_buildHeaders h).1] at hp
  have hadded := added_of_addPackedHeaders _ hp
  rw [hpacks.live]
  exact congrArg some hadded

theorem addedHeaders_sublist (alloc : Nat → HeaderAlloc) (hs : List Header) (k : Nat) :
    (addedHeaders alloc k hs).Sublist hs := by
  induction hs generalizing k with
  | nil => exact List.Sublist.slnil
  | cons x xs ih =>
    rw [addedHeaders]
    split
    · exact (ih (k + 1)).cons_cons x
    · exact (ih (k + 1)).cons x

/-- These headers are some of the three. -/
theorem headersSent_sublist :
    (env.headersSent contentType size).Sublist (responseHeaders contentType size) :=
  addedHeaders_sublist _ _ 0

/-- They are well-formed and short, whichever of them there are. -/
theorem headersSent_bounds (env : WriteEnv) (extension : List UInt8) {n : Nat}
    (hn : n < 2 ^ 63) :
    (∀ x ∈ env.headersSent (getContentType extension) n, x.WellFormed) ∧
      (headersText (env.headersSent (getContentType extension) n)).length ≤ 100 := by
  have hsub : (env.headersSent (getContentType extension) n).Sublist
      (responseHeaders (getContentType extension) n) := headersSent_sublist
  constructor
  · exact fun x hx => responseHeaders_wellFormed extension n x (hsub.subset hx)
  · exact (hsub.flatMap Header.text).length_le.trans (length_responseHeaders extension hn)

/-- The connection is announced to be closed whenever headers can be sent. -/
theorem findHeaderValue_headersSent (hcomplete : env.HeadersComplete) :
    findHeaderValue (env.headersSent contentType size) (bytes "Connection") =
      some (bytes "close") := by
  have htype : (bytes "Content-Type" == bytes "Connection") = false := by decide
  have hlength : (bytes "Content-Length" == bytes "Connection") = false := by decide
  simp only [WriteEnv.headersSent, responseHeaders, addedHeaders, hcomplete.2, if_true]
  cases (env.addHeader 0).copies with
  | false =>
    cases (env.addHeader 1).copies with
    | false => simp [findHeaderValue]
    | true => simp [findHeaderValue, hlength]
  | true =>
    cases (env.addHeader 1).copies with
    | false => simp [findHeaderValue, htype]
    | true => simp [findHeaderValue, htype, hlength]

theorem live_buildHeaders_eq_none (h : buildHeaders env contentType size = some arr)
    (hn : ¬ env.HeadersComplete) : arr.live = none := by
  obtain ⟨p, hpacks, -, hleft⟩ := packs_of_buildHeaders h
  rw [hpacks.live, PackedHeaders.add]
  by_cases hlost : (p.left.isNone && !(env.addHeader 2).realloc) = true
  · rw [if_pos hlost]
    rfl
  · have hcopies : ¬ (env.addHeader 2).copies = true := by
      intro hcopies
      refine hn ⟨fun hsecond => ?_, hcopies⟩
      rcases hleft with ⟨hnone, -⟩ | ⟨-, -, hfailed, -⟩
      · simpa [hnone] using hlost
      · simp [hsecond] at hfailed
    rw [if_neg hlost, if_neg hcopies]
    rfl

theorem freeable_buildHeaders (h : buildHeaders env contentType size = some arr) :
    arr.freeable = true ↔ env.HeadersFreeable := by
  obtain ⟨p, hpacks, -, hleft⟩ := packs_of_buildHeaders h
  rw [hpacks.freeable, PackedHeaders.add, WriteEnv.HeadersFreeable, WriteEnv.Grows]
  rcases hleft with ⟨hnone, hsecond⟩ | ⟨slot, hslot, hsecond, hvalue⟩
  · cases (env.addHeader 2).realloc with
    | false => simp [hnone, hsecond]
    | true =>
      cases (env.addHeader 2).copies with
      | false =>
        -- the value of a slot that has just been allocated is not initialised
        have hjunk : ¬ (((env.addHeader 2).leaves ⟨.junk, .junk⟩).key.freeable &&
            ((env.addHeader 2).leaves ⟨.junk, .junk⟩).value.freeable) = true := by
          rw [HeaderAlloc.freeable_leaves]
          rintro ⟨-, hvalue⟩
          exact Bool.false_ne_true hvalue
        simpa [hnone, hsecond] using hjunk
      | true => simp [hnone]
  · cases hcopies : (env.addHeader 2).copies with
    | false =>
      have hleaves := (env.addHeader 2).freeable_leaves slot
      simp [hslot, hsecond, hleaves, hvalue]
    | true => simp [hslot]

end SelectServer
