import Mathlib.Data.List.GetD
import SelectServer.Shared.HeaderRemoval

/-!
# Who frees the strings of a header array

`free_headers` walks all `header_count` slots of an array, so a slot that is not in use must
hold no pointer. Empty slots (`HeaderArray.TailEmpty`) are what `create_headers` starts with
and what `add_header` keeps; the first `remove_header` that finds its key leaves a slot
behind that is not empty, and with it a double free (`tailEmpty_throughout_iff`). An
`add_header` that fails leaves the array as it was at one of its three points of failure
only (`addHeader_failed_iff`).
-/

namespace SelectServer

open CLib Systems

/-! ## What `free_headers` frees -/

/-- The addresses of the strings in the first `header_index` slots. -/
def HeaderArray.stored (arr : HeaderArray) : List Nat :=
  (((arr.slots.getD []).take arr.headerIndex).flatMap HeaderSlot.pointers).filterMap StrPtr.addr?

/-- `free_headers` over all `header_count` slots frees each stored string, each of them once,
and nothing else. -/
def HeaderArray.FreesEachOnce (arr : HeaderArray) : Prop :=
  ∃ freed, freeHeaders arr.slots arr.headerCount = some freed ∧ freed.Perm arr.stored

/-- The slots behind the first `header_index` ones are as `create_headers` leaves them. -/
def HeaderArray.TailEmpty (arr : HeaderArray) : Prop :=
  ∀ slot ∈ ((arr.slots.getD []).take arr.headerCount).drop arr.headerIndex,
    slot = ⟨.null, .null⟩

@[simp] theorem StrPtr.freeable_null : StrPtr.null.freeable = true := rfl

@[simp] theorem StrPtr.freeable_live (addr : Nat) (text : List UInt8) :
    (StrPtr.live addr text).freeable = true := rfl

@[simp] theorem StrPtr.freeable_freed (addr : Nat) : (StrPtr.freed addr).freeable = false := rfl

@[simp] theorem StrPtr.freeable_junk : StrPtr.junk.freeable = false := rfl

/-- The frees of a list of pointers go well when each is NULL or a string, and no string is
among them twice, nor has been freed before. -/
theorem freePointers_eq_some_iff {freed out : List Nat} {ps : List StrPtr}
    (hfreed : freed.Nodup) :
    freePointers freed ps = some out ↔
      (∀ p ∈ ps, p.freeable = true) ∧ (freed ++ ps.filterMap StrPtr.addr?).Nodup ∧
        out = freed ++ ps.filterMap StrPtr.addr? := by
  induction ps generalizing freed with
  | nil =>
    simp only [freePointers, Option.some.injEq, List.filterMap_nil, List.append_nil]
    constructor
    · rintro rfl
      exact ⟨by simp, hfreed, rfl⟩
    · rintro ⟨-, -, rfl⟩
      rfl
  | cons p ps ih =>
    cases p with
    | null =>
      rw [freePointers, ih hfreed, List.filterMap_cons_none rfl, List.forall_mem_cons]
      simp
    | live addr text =>
      rw [List.filterMap_cons_some (f := StrPtr.addr?) (b := addr) rfl, List.forall_mem_cons,
        freePointers]
      by_cases hmem : addr ∈ freed
      · -- freed before: a fault, and the address would stand twice
        have hdup : ¬ (freed ++ addr :: ps.filterMap StrPtr.addr?).Nodup := by
          intro hnodup
          exact (List.nodup_append.mp hnodup).2.2 addr hmem addr List.mem_cons_self rfl
        simp [hmem, hdup]
      · have hnext : (freed ++ [addr]).Nodup := by
          refine List.nodup_append.mpr ⟨hfreed, List.nodup_singleton addr, ?_⟩
          intro x hx y hy
          rw [List.mem_singleton.mp hy]
          exact ne_of_mem_of_not_mem hx hmem
        rw [if_neg hmem, ih hnext, List.append_assoc, List.singleton_append]
        simp
    | freed addr => simp [freePointers]
    | junk => simp [freePointers]

/-- The strings of a list of slots. -/
def slotAddrs (slots : List HeaderSlot) : List Nat :=
  (slots.flatMap HeaderSlot.pointers).filterMap StrPtr.addr?

@[simp] theorem slotAddrs_append (xs ys : List HeaderSlot) :
    slotAddrs (xs ++ ys) = slotAddrs xs ++ slotAddrs ys := by
  simp [slotAddrs]

@[simp] theorem slotAddrs_entries (entries : List HeaderEntry) :
    slotAddrs (entries.map HeaderEntry.slot) = entries.flatMap HeaderEntry.addrs := by
  induction entries with
  | nil => rfl
  | cons e entries ih =>
    have hhead : slotAddrs [e.slot] = e.addrs := rfl
    rw [List.map_cons, ← List.singleton_append, slotAddrs_append, hhead, ih, List.flatMap_cons]

/-- `free_headers` of a whole array. -/
theorem freeHeaders_eq_some_iff {slots : List HeaderSlot} {out : List Nat} :
    freeHeaders (some slots) slots.length = some out ↔
      (∀ slot ∈ slots, slot.key.freeable = true ∧ slot.value.freeable = true) ∧
        (slotAddrs slots).Nodup ∧ out = slotAddrs slots := by
  have hall : (∀ p ∈ slots.flatMap HeaderSlot.pointers, p.freeable = true) ↔
      ∀ slot ∈ slots, slot.key.freeable = true ∧ slot.value.freeable = true := by
    constructor
    · intro h slot hslot
      exact ⟨h _ (List.mem_flatMap_of_mem hslot (by simp [HeaderSlot.pointers])),
        h _ (List.mem_flatMap_of_mem hslot (by simp [HeaderSlot.pointers]))⟩
    · intro h p hp
      obtain ⟨slot, hslot, hp⟩ := List.mem_flatMap.mp hp
      rcases List.mem_pair.mp hp with rfl | rfl
      · exact (h slot hslot).1
      · exact (h slot hslot).2
  simp only [freeHeaders, le_refl, if_true, List.take_length,
    freePointers_eq_some_iff List.nodup_nil, List.nil_append, hall, slotAddrs]

theorem HeaderArray.LaidOut.stored {arr : HeaderArray} {entries : List HeaderEntry}
    {tail : List HeaderSlot} (h : arr.LaidOut entries tail) :
    arr.stored = entries.flatMap HeaderEntry.addrs := by
  rw [HeaderArray.stored, h.take]
  exact slotAddrs_entries entries

theorem HeaderArray.LaidOut.tailEmpty_iff {arr : HeaderArray} {entries : List HeaderEntry}
    {tail : List HeaderSlot} (h : arr.LaidOut entries tail) :
    arr.TailEmpty ↔ ∀ slot ∈ tail, slot = ⟨.null, .null⟩ := by
  have htail : ((arr.slots.getD []).take arr.headerCount).drop arr.headerIndex = tail := by
    rw [h.slots, h.index, h.count, Option.getD_some, List.take_of_length_le (by simp),
      List.drop_left' (by simp)]
  rw [HeaderArray.TailEmpty, htail]

theorem HeaderArray.LaidOut.freeHeaders {arr : HeaderArray} {entries : List HeaderEntry}
    {tail : List HeaderSlot} (h : arr.LaidOut entries tail) :
    freeHeaders arr.slots arr.headerCount =
      SelectServer.freeHeaders (some (entries.map HeaderEntry.slot ++ tail))
        (entries.map HeaderEntry.slot ++ tail).length := by
  rw [h.slots, h.count, List.length_append, List.length_map]

/-! ## Slots behind the entries -/

/-- Empty slots behind entries that share no string: `free_headers` frees what is stored. -/
theorem HeaderArray.LaidOut.freesEachOnce {arr : HeaderArray} {entries : List HeaderEntry}
    {tail : List HeaderSlot} (h : arr.LaidOut entries tail) (hown : Unshared entries)
    (htail : ∀ slot ∈ tail, slot = ⟨.null, .null⟩) : arr.FreesEachOnce := by
  have hnone : slotAddrs tail = [] := by
    simp only [slotAddrs, List.filterMap_eq_nil_iff, List.mem_flatMap]
    rintro p ⟨slot, hslot, hp⟩
    rw [htail slot hslot] at hp
    rcases List.mem_pair.mp hp with rfl | rfl <;> rfl
  have haddrs : slotAddrs (entries.map HeaderEntry.slot ++ tail) =
      entries.flatMap HeaderEntry.addrs := by
    rw [slotAddrs_append, slotAddrs_entries, hnone, List.append_nil]
  refine ⟨_, ?_, by rw [h.stored]⟩
  rw [h.freeHeaders, freeHeaders_eq_some_iff, haddrs]
  refine ⟨fun slot hslot => ?_, hown, rfl⟩
  rcases List.mem_append.mp hslot with hslot | hslot
  · obtain ⟨e, -, rfl⟩ := List.mem_map.mp hslot
    exact ⟨rfl, rfl⟩
  · rw [htail slot hslot]
    exact ⟨rfl, rfl⟩

/-- A vacated slot holds pointers that dangle, or those of an entry behind the removed one. -/
theorem vacated_cases (e : HeaderEntry) (after : List HeaderEntry) :
    vacated e after = e.dangling ∨ ∃ e' ∈ after, vacated e after = e'.slot := by
  have hmem : vacated e after ∈ e.dangling :: after.map HeaderEntry.slot :=
    List.getLastD_mem_cons
  rcases List.mem_cons.mp hmem with hd | hc
  · exact .inl hd
  · obtain ⟨e', he', hslot⟩ := List.mem_map.mp hc
    exact .inr ⟨e', he', hslot.symm⟩

/-- Behind a removal the tail of the array is not empty. -/
theorem HeaderArray.LaidOut.not_tailEmpty {arr : HeaderArray}
    {before after : List HeaderEntry} {e : HeaderEntry} {tail : List HeaderSlot}
    (h : arr.LaidOut (before ++ after) (vacated e after :: tail)) :
    ¬ arr.TailEmpty := by
  intro hempty
  have hvacated := h.tailEmpty_iff.mp hempty _ List.mem_cons_self
  rcases vacated_cases e after with hd | ⟨e', -, hc⟩
  · rw [hd] at hvacated
    exact StrPtr.noConfusion (HeaderSlot.mk.inj hvacated).1
  · rw [hc] at hvacated
    exact StrPtr.noConfusion (HeaderSlot.mk.inj hvacated).1

/-- Behind a removal `free_headers` comes to a pointer that dangles, or to one that it has
already freed. -/
theorem HeaderArray.LaidOut.not_freesEachOnce {arr : HeaderArray}
    {before after : List HeaderEntry} {e : HeaderEntry} {tail : List HeaderSlot}
    (h : arr.LaidOut (before ++ after) (vacated e after :: tail)) :
    ¬ arr.FreesEachOnce := by
  rintro ⟨freed, hfree, -⟩
  rw [h.freeHeaders, freeHeaders_eq_some_iff] at hfree
  obtain ⟨hfreeable, hnodup, -⟩ := hfree
  rcases vacated_cases e after with hd | ⟨e', he', hc⟩
  · -- the removed entry was the last one
    rw [hd] at hfreeable
    have hkey := (hfreeable e.dangling (by simp)).1
    exact Bool.noConfusion hkey
  · -- the key of the last entry is in both of its slots
    rw [hc, ← List.singleton_append (x := e'.slot), slotAddrs_append, slotAddrs_entries] at hnodup
    have hstored : e'.keyAddr ∈ (before ++ after).flatMap HeaderEntry.addrs :=
      List.mem_flatMap_of_mem (List.mem_append_right _ he') (by simp [HeaderEntry.addrs])
    have hcopy : e'.keyAddr ∈ slotAddrs ([e'.slot] ++ tail) := by
      simp [slotAddrs, HeaderSlot.pointers, HeaderEntry.slot, StrPtr.addr?]
    exact (List.nodup_append.mp hnodup).2.2 _ hstored _ hcopy rfl

/-! ## Runs without a removal -/

/-- The first call adds the key that the second one removes. -/
def HeaderCall.removedBy : HeaderCall → HeaderCall → Bool
  | .add key _, .remove key' => key == key'
  | _, _ => false

/-- A key is removed behind the call that adds it, or it is not. -/
theorem forall_not_removedBy_add_iff (key value : List UInt8) (calls : List HeaderCall) :
    (∀ d ∈ calls, ¬ (HeaderCall.add key value).removedBy d) ↔
      HeaderCall.remove key ∉ calls := by
  constructor
  · intro hall hmem
    exact hall _ hmem (by simp [HeaderCall.removedBy])
  · intro hnot d hd hremoved
    cases d with
    | add key' value' => simp [HeaderCall.removedBy] at hremoved
    | remove key' =>
      simp only [HeaderCall.removedBy, beq_iff_eq] at hremoved
      exact hnot (hremoved ▸ hd)

/-- Any property that holds in front of every removal, and behind none: it holds throughout a
sequence of calls exactly if no call removes an entry. -/
theorem throughout_iff_of_removal {P : HeaderHeap → Prop}
    (hempty : ∀ m entries tail, HeaderHeap.Stores m entries tail →
      (∀ slot ∈ tail, slot = ⟨.null, .null⟩) → P m)
    (hremoval : ∀ m before after e tail,
      HeaderHeap.Stores m (before ++ after) (vacated e after :: tail) → ¬ P m)
    {m : HeaderHeap} {entries : List HeaderEntry} {tail : List HeaderSlot}
    (h : m.Stores entries tail) (htail : ∀ slot ∈ tail, slot = ⟨.null, .null⟩)
    (calls : List HeaderCall) :
    Throughout headerCall P m calls ↔
      (∀ e ∈ entries, HeaderCall.remove e.header.key ∉ calls) ∧
        calls.Pairwise fun c d => ¬ c.removedBy d := by
  induction calls generalizing m entries tail with
  | nil =>
    rw [throughout_nil]
    exact ⟨fun _ => ⟨by simp, List.Pairwise.nil⟩, fun _ => hempty m entries tail h htail⟩
  | cons call calls ih =>
    -- as long as nothing was removed the tail has no strings
    have hP := hempty m entries tail h htail
    cases call with
    | add key value =>
      obtain ⟨m', hcall, hstores⟩ := h.add key value
      have htail' : ∀ slot ∈ tail.drop 1, slot = ⟨.null, .null⟩ := fun slot hslot =>
        htail slot (List.mem_of_mem_drop hslot)
      have hhead : (∀ e ∈ entries, HeaderCall.remove e.header.key ∉
          HeaderCall.add key value :: calls) ↔
          ∀ e ∈ entries, HeaderCall.remove e.header.key ∉ calls := by simp
      -- the added entry joins those whose keys must not be removed any more
      rw [throughout_cons hcall, and_iff_right hP, ih hstores htail', List.pairwise_cons,
        forall_not_removedBy_add_iff, hhead, List.forall_mem_append, List.forall_mem_singleton,
        and_assoc]
    | remove key =>
      by_cases hany : ∃ e ∈ entries, e.header.key = key
      · -- the first removal of the run
        obtain ⟨e₀, hmem, hkey₀⟩ := hany
        obtain ⟨e, before, after, hbefore, he, rfl, -⟩ :=
          List.exists_of_eraseP (p := fun e => e.header.key == key) hmem (by simpa using hkey₀)
        obtain ⟨m', tail', hcall, hstores⟩ :=
          h.remove_found (by simpa using he) (by simpa using hbefore)
        rw [throughout_cons hcall]
        constructor
        · rintro ⟨-, hrest⟩
          exact absurd (hrest [] List.nil_prefix [] m' rfl) (hremoval m' _ _ _ _ hstores)
        · rintro ⟨hno, -⟩
          exact absurd (by simp [hkey₀]) (hno e₀ hmem)
      · -- nothing to remove
        have hnone : ∀ e ∈ entries, e.header.key ≠ key := by simpa using hany
        have hhead : (∀ e ∈ entries, HeaderCall.remove e.header.key ∉
            HeaderCall.remove key :: calls) ↔
            ∀ e ∈ entries, HeaderCall.remove e.header.key ∉ calls := by
          refine forall₂_congr fun e he => ?_
          rw [List.mem_cons, not_or]
          exact and_iff_right (by simpa using hnone e he)
        have hkept : ∀ d ∈ calls, ¬ (HeaderCall.remove key).removedBy d := by
          simp [HeaderCall.removedBy]
        rw [throughout_cons (h.remove_missing hnone), and_iff_right hP, ih h htail,
          List.pairwise_cons, and_iff_right hkept, hhead]

/-- From any initial capacity, the slots that are not in use stay empty along a sequence of
calls, and `free_headers` would at any time free each string once, exactly if no call removes
a header that an earlier call has added. -/
theorem tailEmpty_throughout_iff (initialCount : Nat) (calls : List HeaderCall) :
    (Throughout headerCall (·.arr.TailEmpty) (HeaderHeap.created initialCount) calls ↔
        calls.Pairwise fun c d => ¬ c.removedBy d) ∧
      (Throughout headerCall (·.arr.FreesEachOnce) (HeaderHeap.created initialCount) calls ↔
        calls.Pairwise fun c d => ¬ c.removedBy d) := by
  have hcreated := HeaderHeap.created_stores initialCount
  have hnull : ∀ slot ∈ createHeaders initialCount, slot = ⟨.null, .null⟩ := fun slot hslot =>
    List.eq_of_mem_replicate hslot
  have hcond : ((∀ e ∈ ([] : List HeaderEntry), HeaderCall.remove e.header.key ∉ calls) ∧
      calls.Pairwise fun c d => ¬ c.removedBy d) ↔
      calls.Pairwise fun c d => ¬ c.removedBy d := and_iff_right (by simp)
  refine ⟨?_, ?_⟩
  · refine (throughout_iff_of_removal ?_ ?_ hcreated hnull calls).trans hcond
    · intro m entries tail hstores htail
      exact hstores.laidOut.tailEmpty_iff.mpr htail
    · intro m before after e tail hstores
      exact hstores.laidOut.not_tailEmpty
  · refine (throughout_iff_of_removal ?_ ?_ hcreated hnull calls).trans hcond
    · intro m entries tail hstores htail
      exact hstores.laidOut.freesEachOnce hstores.unshared htail
    · intro m before after e tail hstores
      exact hstores.laidOut.not_freesEachOnce

/-- Capacity 2, two headers, the first one removed: the second one stands in both slots, and
`free_headers` frees its key twice. -/
theorem double_free_after_remove_header :
    ∃ m, faultTrace headerCall (HeaderHeap.created 2)
        [.add (bytes "a") (bytes "1"), .add (bytes "b") (bytes "2"), .remove (bytes "a")] =
          some ([0, 0, 0], m) ∧
      ¬ m.arr.TailEmpty ∧ freeHeaders m.arr.slots m.arr.headerCount = none := by
  refine ⟨_, rfl, ?_, rfl⟩
  intro hempty
  have hslot := hempty ⟨.live 2 (bytes "b"), .live 3 (bytes "2")⟩ (by decide)
  exact StrPtr.noConfusion (HeaderSlot.mk.inj hslot).1

/-! ## `add_header` when an allocation fails -/

section Failed

variable {a : HeaderAlloc} {arr arr' : HeaderArray} {key value : List UInt8}

/-- The slot at `header_index`. -/
def HeaderArray.nextSlot (arr : HeaderArray) : HeaderSlot :=
  (arr.slots.getD []).getD arr.headerIndex ⟨.junk, .junk⟩

/-- The array with another slot at `header_index`. -/
def HeaderArray.setNextSlot (arr : HeaderArray) (slot : HeaderSlot) : HeaderArray :=
  { arr with slots := arr.slots.map (·.set arr.headerIndex slot) }

theorem HeaderArray.nextSlot_mem (hwf : arr.WellFormed)
    (hlt : arr.headerIndex < arr.headerCount) :
    arr.nextSlot ∈ ((arr.slots.getD []).take arr.headerCount).drop arr.headerIndex := by
  obtain ⟨slots, hslots, hlen⟩ := hwf.allocated
  have hlt' : arr.headerIndex < slots.length := by omega
  rw [HeaderArray.nextSlot, hslots, Option.getD_some, ← hlen, List.take_length,
    List.getD_eq_getElem _ _ hlt', List.drop_eq_getElem_cons hlt']
  exact List.mem_cons_self

theorem HeaderArray.setNextSlot_eq_self_iff (hwf : arr.WellFormed)
    (hlt : arr.headerIndex < arr.headerCount) (slot : HeaderSlot) :
    arr.setNextSlot slot = arr ↔ arr.nextSlot = slot := by
  obtain ⟨slots, hslots, hlen⟩ := hwf.allocated
  have hlt' : arr.headerIndex < slots.length := by omega
  have hget : arr.nextSlot = slots[arr.headerIndex] := by
    rw [HeaderArray.nextSlot, hslots, Option.getD_some, List.getD_eq_getElem _ _ hlt']
  rw [hget, HeaderArray.setNextSlot]
  constructor
  · intro h
    have hset := congrArg HeaderArray.slots h
    rw [hslots] at hset
    have hset' : slots.set arr.headerIndex slot = slots := Option.some.inj hset
    have hat : (slots.set arr.headerIndex slot)[arr.headerIndex]? = some slot :=
      List.getElem?_set_self hlt'
    rw [hset', List.getElem?_eq_getElem hlt'] at hat
    exact Option.some.inj hat
  · rintro rfl
    rw [hslots, Option.map_some, List.set_getElem_self, ← hslots]

/-- A failing `add_header` that need not grow the array changes the slot at `header_index`
only: its key is NULL, or dangles. -/
theorem addHeader_failed_of_lt (hfail : addHeader a arr key value = (-1, arr'))
    (hwf : arr.WellFormed) (hlt : arr.headerIndex < arr.headerCount) :
    (a.key = none ∧ arr' = arr.setNextSlot { arr.nextSlot with key := .null }) ∨
      ∃ keyAddr, a.key = some keyAddr ∧ arr' = arr.setNextSlot ⟨.freed keyAddr, .null⟩ := by
  obtain ⟨slots, hslots, -⟩ := hwf.allocated
  rw [addHeader, if_neg (Nat.not_le.mpr hlt)] at hfail
  simp only [HeaderArray.setNextSlot, HeaderArray.nextSlot, hslots, Option.getD_some,
    Option.map_some] at hfail ⊢
  unfold fillSlot at hfail
  cases hkey : a.key with
  | none =>
    rw [hkey] at hfail
    exact .inl ⟨rfl, (Prod.mk.inj hfail).2.symm⟩
  | some keyAddr =>
    rw [hkey] at hfail
    cases hvalue : a.value with
    | none =>
      rw [hvalue] at hfail
      exact .inr ⟨keyAddr, rfl, (Prod.mk.inj hfail).2.symm⟩
    | some valueAddr =>
      -- nothing has failed
      rw [hvalue] at hfail
      exact absurd (Prod.mk.inj hfail).1 (by decide)

/-- A list whose strings `free_headers` would free, each once, has nothing in the slots that
are not in use. -/
theorem HeaderArray.FreesEachOnce.tailEmpty (h : arr.FreesEachOnce) (hwf : arr.WellFormed) :
    arr.TailEmpty := by
  obtain ⟨⟨slots, hslots, hlen⟩, -⟩ := hwf
  obtain ⟨freed, hfree, hperm⟩ := h
  rw [hslots, ← hlen, freeHeaders_eq_some_iff] at hfree
  obtain ⟨hfreeable, -, rfl⟩ := hfree
  -- all strings of the array are in the first `header_index` slots
  have hnone : slotAddrs (slots.drop arr.headerIndex) = [] := by
    have hall : slotAddrs slots = slotAddrs (slots.take arr.headerIndex) ++
        slotAddrs (slots.drop arr.headerIndex) := by
      rw [← slotAddrs_append, List.take_append_drop]
    have hcount := hperm.length_eq
    rw [hall, HeaderArray.stored, hslots, Option.getD_some, List.length_append] at hcount
    exact List.length_eq_zero_iff.mp (Nat.add_eq_left.mp hcount)
  intro slot hslot
  rw [hslots, Option.getD_some, ← hlen, List.take_length] at hslot
  have hnull : ∀ p ∈ slot.pointers, p.freeable = true → p = .null := by
    intro p hp hpfree
    have haddr : p.addr? = none := List.filterMap_eq_nil_iff.mp hnone p
      (List.mem_flatMap_of_mem hslot hp)
    cases p with
    | null => rfl
    | live addr text => exact absurd haddr (by simp [StrPtr.addr?])
    | freed addr => exact Bool.noConfusion hpfree
    | junk => exact Bool.noConfusion hpfree
  obtain ⟨hkey, hvalue⟩ := hfreeable slot (List.mem_of_mem_drop hslot)
  have hk := hnull slot.key (by simp [HeaderSlot.pointers]) hkey
  have hv := hnull slot.value (by simp [HeaderSlot.pointers]) hvalue
  cases slot
  simp only at hk hv
  rw [hk, hv]

/-- What an `add_header` that fails leaves behind is the array as it was before, and
`free_headers` frees every string stored in that, exactly if the array had a slot left, the
first `malloc` is the one that failed, and the array could have been freed before the call. -/
theorem addHeader_failed_iff (hwf : arr.WellFormed)
    (hfail : addHeader a arr key value = (-1, arr')) :
    (arr' = arr ∧ ∃ freed, freeHeaders arr'.slots arr'.headerCount = some freed ∧
        freed.Perm arr.stored) ↔
      arr.headerIndex < arr.headerCount ∧ a.key = none ∧ arr.FreesEachOnce := by
  constructor
  · rintro ⟨hsame, hfrees⟩
    have hfrees' : arr.FreesEachOnce := hsame ▸ hfrees
    have hlt : arr.headerIndex < arr.headerCount := by
      -- the growth of a full array changes the count
      by_contra hfull
      have hcount := addHeader_headerCount a arr key value
      rw [hfail, hsame, if_pos (Nat.not_lt.mp hfull)] at hcount
      exact Nat.succ_ne_self _ hcount.symm
    obtain ⟨hkey, -⟩ | ⟨keyAddr, -, harr⟩ := addHeader_failed_of_lt hfail hwf hlt
    · exact ⟨hlt, hkey, hfrees'⟩
    · -- the slot at `header_index` was empty, and holds the freed key now
      have hslot := (arr.setNextSlot_eq_self_iff hwf hlt _).mp (harr.symm.trans hsame)
      rw [hfrees'.tailEmpty hwf _ (arr.nextSlot_mem hwf hlt)] at hslot
      exact StrPtr.noConfusion (HeaderSlot.mk.inj hslot).1
  · rintro ⟨hlt, hkey, hfrees⟩
    obtain ⟨-, harr⟩ | ⟨keyAddr, hkey', -⟩ := addHeader_failed_of_lt hfail hwf hlt
    · -- the slot was empty, so that a NULL key changes nothing
      have hslot := hfrees.tailEmpty hwf _ (arr.nextSlot_mem hwf hlt)
      have hsame : arr' = arr := by
        rw [harr, arr.setNextSlot_eq_self_iff hwf hlt, hslot]
      exact ⟨hsame, hsame ▸ hfrees⟩
    · exact absurd (hkey.symm.trans hkey') (by simp)

/-- An array with a header and a free slot, and a `malloc` of the key that fails: nothing has
changed, and both strings of the header can be freed. -/
theorem addHeader_failed_iff_key :
    let arr : HeaderArray :=
      ⟨some [⟨.live 0 (bytes "a"), .live 1 (bytes "1")⟩, ⟨.null, .null⟩], 1, 2⟩
    let arr' := (addHeader ⟨true, none, none⟩ arr (bytes "b") (bytes "2")).2
    arr.stored = [0, 1] ∧ arr' = arr ∧
      ∃ freed, freeHeaders arr'.slots arr'.headerCount = some freed ∧ freed.Perm arr.stored := by
  intro arr arr'
  have hfail : addHeader ⟨true, none, none⟩ arr (bytes "b") (bytes "2") = (-1, arr') := rfl
  have hwf : arr.WellFormed := ⟨⟨_, rfl, rfl⟩, by decide⟩
  exact ⟨rfl, (addHeader_failed_iff hwf hfail).mpr
    ⟨by decide, rfl, [0, 1], rfl, List.Perm.refl _⟩⟩

/-- The three failures of an `add_header` on a full array of one header, whose strings are at
0 and 1. Behind the `realloc` both strings are lost; behind the key the array has one slot
more, whose value is not initialised; behind the value it has a slot with a dangling key. -/
theorem addHeader_failed_damage :
    let arr : HeaderArray := ⟨some [⟨.live 0 (bytes "a"), .live 1 (bytes "1")⟩], 1, 1⟩
    let fails a := (addHeader a arr (bytes "b") (bytes "2")).2
    arr.FreesEachOnce ∧ arr.stored = [0, 1] ∧
      fails ⟨false, none, none⟩ = ⟨none, 1, 2⟩ ∧
      freeHeaders (fails ⟨false, none, none⟩).slots 2 = some [] ∧
      fails ⟨true, none, none⟩ = ⟨some (arr.slots.getD [] ++ [⟨.null, .junk⟩]), 1, 2⟩ ∧
      freeHeaders (fails ⟨true, none, none⟩).slots 2 = none ∧
      fails ⟨true, some 2, none⟩ = ⟨some (arr.slots.getD [] ++ [⟨.freed 2, .null⟩]), 1, 2⟩ ∧
      freeHeaders (fails ⟨true, some 2, none⟩).slots 2 = none :=
  ⟨⟨[0, 1], rfl, List.Perm.refl _⟩, rfl, rfl, rfl, rfl, rfl, rfl, rfl⟩

end Failed

end SelectServer
