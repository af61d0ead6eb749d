import SelectServer.Server.ResponseHeaders
import SelectServer.Shared.MessageHeap

/-!
# The blocks of a header array that is being filled

`create_headers` and the `add_header` calls behind it on the heap. The array moves when a
`realloc` succeeds; one that fails leaves a block behind that nothing refers to. An array whose
headers can be read in the end owns its own block and two strings for each header, whatever has
failed on the way (`owns_createHeaders`).
-/

namespace SelectServer

open CLib Systems

/-- A header array that is being filled, with its blocks. -/
structure HeldPacked where
  array : HeldArray
  left : Option HeaderSlot

/-- The view of the array without its blocks. -/
def HeldPacked.plain (p : HeldPacked) : PackedHeaders := ⟨p.array.headers, p.left⟩

/-- The blocks of the array; NULL has none. -/
def packedBlocks (p : Option HeldPacked) : Multiset Nat := arrayBlocks (p.map HeldPacked.array)

/-- The copies that `add_header` makes for the slot it fills. -/
def HeldArray.fill (a : HeldArray) (alloc : HeaderAlloc) (h : Header) (slot : HeaderSlot) :
    HeapM (Option HeldPacked) :=
  if alloc.key.isSome then do
    let key ← malloc
    if alloc.value.isSome then do
      let value ← malloc
      pure (some ⟨{ a with entries := a.entries ++ [⟨h, key, value⟩] }, none⟩)
    else do
      free key
      pure (some ⟨a, some (alloc.leaves slot)⟩)
  else pure (some ⟨a, some (alloc.leaves slot)⟩)

/-- `add_header` on the heap. A `realloc` that succeeds moves the array, and one that fails
leaves a block behind that nothing refers to. -/
def HeldPacked.addOn (p : HeldPacked) (alloc : HeaderAlloc) (h : Header) :
    HeapM (Option HeldPacked) :=
  match p.left with
  | some slot => p.array.fill alloc h slot
  | none =>
    if alloc.realloc then do
      free p.array.block
      let block ← malloc
      { p.array with block := block }.fill alloc h ⟨.junk, .junk⟩
    else pure none

/-- The calls one after the other, their results ignored. -/
def addPackedOn (alloc : Nat → HeaderAlloc) :
    Nat → Option HeldPacked → List Header → HeapM (Option HeldPacked)
  | _, p, [] => pure p
  | _, none, _ :: _ => failure
  | k, some p, h :: hs => do
    let q ← p.addOn (alloc k) h
    addPackedOn alloc (k + 1) q hs

/-- `create_headers`, and an `add_header` for each header. -/
def createHeadersOn (alloc : Nat → HeaderAlloc) (created : Bool) (hs : List Header) :
    HeapM (Option HeldPacked) :=
  if created then do
    let block ← malloc
    addPackedOn alloc 0 (some ⟨⟨block, []⟩, some ⟨.null, .null⟩⟩) hs
  else addPackedOn alloc 0 none hs

/-- The array as a message refers to it, if all of its slots hold a header. -/
def completeArray (p : Option HeldPacked) : Option HeldArray :=
  p.bind fun p => if p.left.isNone then some p.array else none

/-- May the array be given to `free_headers`? -/
def packedFreeable (p : Option HeldPacked) : Bool :=
  (p.bind HeldPacked.left).all fun slot => slot.key.freeable && slot.value.freeable

/-! ## What it owns -/

theorem owns_fill (a : HeldArray) (alloc : HeaderAlloc) (h : Header) (slot : HeaderSlot) :
    Owns (arrayBlocks (some a)) (a.fill alloc h slot) fun r O =>
      O = packedBlocks r ∧ r.map HeldPacked.plain =
        if alloc.copies then some ⟨a.headers ++ [h], none⟩
        else some ⟨a.headers, some (alloc.leaves slot)⟩ := by
  unfold HeldArray.fill HeaderAlloc.copies
  cases hkey : alloc.key.isSome with
  | false => exact Owns.pure ⟨rfl, rfl⟩
  | true =>
    apply Owns.malloc_bind
    intro key
    cases hvalue : alloc.value.isSome with
    | false => exact Owns.free_bind (Owns.pure ⟨rfl, rfl⟩)
    | true =>
      apply Owns.malloc_bind
      intro value
      refine Owns.pure ⟨?_, ?_⟩
      · simp only [packedBlocks, arrayBlocks, Option.map_some, HeldArray.strings,
          List.flatMap_append, List.flatMap_singleton, HeaderEntry.addrs, ← Multiset.coe_add,
          ← Multiset.cons_coe, Multiset.coe_nil, ← Multiset.singleton_add]
        abel
      · simp only [Option.map_some, HeldPacked.plain, HeldArray.headers, List.map_append,
          List.map_singleton, Bool.and_self, if_true]

/-- An `add_header` on the heap is the one on the view. The blocks are those of the array, which
nothing refers to when the `realloc` has failed. -/
theorem owns_addOn (p : HeldPacked) (alloc : HeaderAlloc) (h : Header) :
    Owns (packedBlocks (some p)) (p.addOn alloc h) fun r O =>
      r.map HeldPacked.plain = p.plain.add alloc h ∧
        O = packedBlocks (if r.isNone then some p else r) := by
  unfold HeldPacked.addOn
  -- a slot that is filled, or left over, is one of an array
  have hfill : ∀ (a : HeldArray) (slot : HeaderSlot), a.headers = p.array.headers →
      (p.left.isNone && !alloc.realloc) = false → p.left.getD ⟨.junk, .junk⟩ = slot →
      Owns (arrayBlocks (some a)) (a.fill alloc h slot) fun r O =>
        r.map HeldPacked.plain = p.plain.add alloc h ∧
          O = packedBlocks (if r.isNone then some p else r) := by
    rintro a slot hheaders hgrows rfl
    apply (owns_fill a alloc h (p.left.getD ⟨.junk, .junk⟩)).mono
    rintro r O ⟨rfl, hr⟩
    have hadd : r.map HeldPacked.plain = p.plain.add alloc h := by
      rw [hr, hheaders, PackedHeaders.add]
      simp only [HeldPacked.plain, hgrows, Bool.false_eq_true, if_false]
    refine ⟨hadd, ?_⟩
    cases r with
    | none =>
      rw [Option.map_none] at hr
      split at hr
      · exact absurd hr.symm (Option.some_ne_none _)
      · exact absurd hr.symm (Option.some_ne_none _)
    | some r => rfl
  cases hleft : p.left with
  | some slot => exact hfill p.array slot rfl (by simp [hleft]) (by simp [hleft])
  | none =>
    cases hrealloc : alloc.realloc with
    | false =>
      refine Owns.pure ⟨?_, rfl⟩
      simp [PackedHeaders.add, HeldPacked.plain, hleft, hrealloc]
    | true =>
      have hblocks : packedBlocks (some p) = {p.array.block} + ↑p.array.strings := rfl
      rw [hblocks, if_pos rfl]
      apply Owns.free_bind
      apply Owns.malloc_bind
      intro block
      exact hfill { p.array with block := block } _ rfl (by simp [hrealloc]) (by simp [hleft])

theorem card_packedBlocks (p : HeldPacked) :
    (packedBlocks (some p)).card = 1 + 2 * p.plain.added.length := by
  have hstrings : p.array.strings.length = 2 * p.array.entries.length := by
    simp [HeldArray.strings, HeaderEntry.addrs, List.length_flatMap, Nat.mul_comm]
  simp [packedBlocks, arrayBlocks, HeldPacked.plain, HeldArray.headers, hstrings, Nat.add_comm]

/-- The calls on the heap are those on the view, and an array that the last one loses is left
behind with what it has been filled with. -/
theorem owns_addPacked {alloc : Nat → HeaderAlloc} (hs : List Header) {k : Nat} {p : HeldPacked}
    {q : Option PackedHeaders} (h : addPackedHeaders alloc k (some p.plain) hs = some q) :
    Owns (packedBlocks (some p)) (addPackedOn alloc k (some p) hs) fun r O =>
      r.map HeldPacked.plain = q ∧ ∃ L, O = packedBlocks r + L ∧
        L.card ≤ if r.isNone then 2 * (p.plain.added.length + hs.length) - 1 else 0 := by
  induction hs generalizing k p with
  | nil => exact Owns.pure ⟨Option.some.inj h, 0, (add_zero _).symm, Nat.zero_le _⟩
  | cons x xs ih =>
    rw [addPackedHeaders] at h
    apply (owns_addOn p (alloc k) x).bind
    rintro r O ⟨hr, rfl⟩
    cases r with
    | none =>
      -- no call returns from an array that is lost
      rw [← hr, Option.map_none] at h
      cases xs with
      | cons y ys => exact absurd h.symm (Option.some_ne_none _)
      | nil =>
        refine Owns.pure ⟨Option.some.inj h, packedBlocks (some p), (zero_add _).symm, ?_⟩
        rw [card_packedBlocks, List.length_singleton]
        simp only [Option.isNone_none, if_true]
        omega
    | some r =>
      rw [← hr, Option.map_some] at h
      have hadded := congrArg List.length (PackedHeaders.added_of_add hr.symm)
      apply (ih h).mono
      rintro r' O ⟨hr', L, rfl, hcard⟩
      refine ⟨hr', L, rfl, hcard.trans ?_⟩
      split
      · rw [hadded, List.length_append, List.length_cons]
        split
        · rw [List.length_singleton]
          omega
        · rw [List.length_nil]
          omega
      · exact Nat.le_refl 0

/-- The array on the heap can be read and freed where the one without blocks can, and it is all
there is, unless it has been lost. -/
theorem owns_createHeaders {alloc : Nat → HeaderAlloc} {created : Bool} {hs : List Header}
    {arr : HeaderArray} (harr : addHeaders alloc 0
      ⟨if created then some (createHeaders initialHeaderCount) else none, 0, initialHeaderCount⟩
      hs = some arr) :
    Owns 0 (createHeadersOn alloc created hs) fun r O =>
      arr.live = (completeArray r).map HeldArray.headers ∧ arr.freeable = packedFreeable r ∧
        ∃ L, O = packedBlocks r + L ∧ L.card ≤ if r.isNone then 2 * hs.length - 1 else 0 := by
  -- the array on the heap packs the one without blocks, call after call
  have hcreated : HeaderArray.Packs
      ⟨if created then some (createHeaders initialHeaderCount) else none, 0, initialHeaderCount⟩
      (if created then some ⟨[], some ⟨.null, .null⟩⟩ else none) := by
    cases created with
    | false => rfl
    | true => exact createHeaders_packs
  have hpacks := addHeaders_packs alloc hs 0 hcreated
  cases hq : addPackedHeaders alloc 0 (if created then some ⟨[], some ⟨.null, .null⟩⟩ else none)
      hs with
  | none =>
    rw [hq] at hpacks
    exact absurd (harr.symm.trans hpacks) (Option.some_ne_none arr)
  | some q =>
    rw [hq] at hpacks
    obtain ⟨arr', harr', hpacks⟩ := hpacks
    obtain rfl := Option.some.inj (harr.symm.trans harr')
    rw [hpacks.live, hpacks.freeable]
    unfold createHeadersOn
    cases created with
    | false =>
      -- NULL stays NULL, and the first call does not return from it
      cases hs with
      | nil =>
        obtain rfl := Option.some.inj hq
        exact Owns.pure ⟨rfl, rfl, 0, rfl, Nat.zero_le _⟩
      | cons x xs => cases hq
    | true =>
      apply Owns.malloc_bind
      intro block
      -- the first block is the array, with one free slot
      apply (owns_addPacked (p := ⟨⟨block, []⟩, some ⟨.null, .null⟩⟩) hs hq).mono
      rintro r O ⟨rfl, L, rfl, hcard⟩
      refine ⟨?_, ?_, L, rfl, ?_⟩
      · cases r with
        | none => rfl
        | some r =>
          simp only [completeArray, Option.map_some, Option.bind_some, HeldPacked.plain]
          split
          · rfl
          · rfl
      · cases r with
        | none => rfl
        | some r => rfl
      · rwa [HeldPacked.plain, HeldArray.headers, List.map_nil, List.length_nil,
          Nat.zero_add] at hcard

/-- An array whose headers can be read has not been lost, and no slot of it is left over. -/
theorem owns_createHeaders_of_live {alloc : Nat → HeaderAlloc} {created : Bool}
    {hs : List Header} {arr : HeaderArray} (harr : addHeaders alloc 0
      ⟨if created then some (createHeaders initialHeaderCount) else none, 0, initialHeaderCount⟩
      hs = some arr) {headers : List Header} (hlive : arr.live = some headers) :
    Owns 0 (createHeadersOn alloc created hs) fun r O =>
      ∃ array, completeArray r = some array ∧ array.headers = headers ∧
        O = arrayBlocks (some array) := by
  apply (owns_createHeaders harr).mono
  rintro r O ⟨hr, -, L, rfl, hcard⟩
  obtain ⟨array, hcomplete, hheaders⟩ := Option.map_eq_some_iff.mp (hr.symm.trans hlive)
  refine ⟨array, hcomplete, hheaders, ?_⟩
  obtain ⟨p, rfl, hp⟩ := Option.bind_eq_some_iff.mp hcomplete
  obtain ⟨-, harray⟩ := Option.ite_none_right_eq_some.mp hp
  obtain rfl := Option.some.inj harray
  have hlost : L = 0 := Multiset.card_eq_zero.mp (Nat.le_zero.mp hcard)
  rw [hlost, add_zero]
  rfl

end SelectServer
