import SelectServer.Shared.Headers
import SelectServer.Systems.Transition

/-!
# The header array as a list

`remove_header` and `free_headers` of `shared/http.c`, and the array under any sequence of
`add_header` and `remove_header` calls. The array is three things that move separately: the
slots, `header_index` and `header_count`. Over them stands a list of entries, each with its
header and the addresses of its two strings, in front of the slots that are not in use
(`HeaderArray.LaidOut`); every call keeps that layout, and on the entries it is the
operation of a plain list (`headerCalls_refine`).
-/

namespace SelectServer

open CLib Systems

/-! ## Freeing strings -/

/-- The address of the string that a field points to. -/
def StrPtr.addr? : StrPtr → Option Nat
  | .live addr _ => some addr
  | _ => none

/-- What becomes of a pointer when the strings at some addresses are freed: it keeps its
value, and dangles when it points to one of them. -/
def StrPtr.release (freed : List Nat) : StrPtr → StrPtr
  | .live addr text => if addr ∈ freed then .freed addr else .live addr text
  | p => p

/-- `release` for both fields of a slot. -/
def HeaderSlot.release (freed : List Nat) (slot : HeaderSlot) : HeaderSlot :=
  ⟨slot.key.release freed, slot.value.release freed⟩

/-- The two fields of a slot, in the order in which `free_header` looks at them. -/
def HeaderSlot.pointers (slot : HeaderSlot) : List StrPtr := [slot.key, slot.value]

/-- `if (p != NULL) free(p)` for one pointer after the other, behind the strings `freed`: all
addresses that are freed then. Freeing a string twice, or what is no string, is a fault
(`none`). -/
def freePointers : List Nat → List StrPtr → Option (List Nat)
  | freed, [] => some freed
  | freed, .null :: ps => freePointers freed ps
  | freed, .live addr _ :: ps =>
    if addr ∈ freed then none else freePointers (freed ++ [addr]) ps
  | _, .freed _ :: _ => none
  | _, .junk :: _ => none

/-- `free_header` of slot `i`. It does not set the pointers to NULL. -/
def freeHeader (i : Nat) (slots : List HeaderSlot) : Option (List HeaderSlot) := do
  let slot ← slots[i]?
  let freed ← freePointers [] slot.pointers
  some (slots.map (HeaderSlot.release freed))

/-- `free_headers`: the addresses of the strings it frees. It returns at once for a NULL
array. -/
def freeHeaders (headers : Option (List HeaderSlot)) (headerCount : Nat) : Option (List Nat) :=
  match headers with
  | none => some []
  | some slots =>
    if headerCount ≤ slots.length then
      freePointers [] ((slots.take headerCount).flatMap HeaderSlot.pointers)
    else none

/-! ## `remove_header` -/

/-- The search loop of `remove_header`: the position of the first slot whose key is `key`.
`strcmp` of a pointer that is no string is a fault. -/
def keyIndex (key : List UInt8) : List HeaderSlot → Option (Option Nat)
  | [] => some none
  | slot :: slots =>
    match slot.key with
    | .live _ text =>
      if text = key then some (some 0) else (keyIndex key slots).map (Option.map (· + 1))
    | _ => none

/-- The shift loop of `remove_header`: `(*headers)[j] = (*headers)[j + 1]`, `moves` times
from `j` on. -/
def shiftLeft : Nat → Nat → List HeaderSlot → List HeaderSlot
  | 0, _, slots => slots
  | moves + 1, j, slots =>
    shiftLeft moves (j + 1) (slots.set j (slots.getD (j + 1) ⟨.junk, .junk⟩))

/-- `remove_header`, for an array that is not NULL; `realloc` tells whether the halving of
the array succeeds. The count is halved in front of the `realloc`. -/
def removeHeader (realloc : Bool) (arr : HeaderArray) (key : List UInt8) :
    Option (Int × HeaderArray) := do
  let slots ← arr.slots
  let found ← keyIndex key (slots.take arr.headerIndex)
  match found with
  | none => some (-1, arr)
  | some i =>
    let slots ← freeHeader i slots
    let slots := shiftLeft (arr.headerIndex - 1 - i) i slots
    let headerIndex := arr.headerIndex - 1
    if 0 < headerIndex ∧ headerIndex < arr.headerCount / 2 then
      let headerCount := arr.headerCount / 2
      if realloc then some (0, ⟨some (resize slots headerCount), headerIndex, headerCount⟩)
      else some (-1, ⟨some slots, headerIndex, headerCount⟩)
    else some (0, ⟨some slots, headerIndex, arr.headerCount⟩)

/-! ## Entries -/

/-- A header that the array stores, with the addresses of its two strings. -/
structure HeaderEntry where
  header : Header
  keyAddr : Nat
  valueAddr : Nat
  deriving DecidableEq, Repr

/-- The slot of an entry. -/
def HeaderEntry.slot (e : HeaderEntry) : HeaderSlot :=
  ⟨.live e.keyAddr e.header.key, .live e.valueAddr e.header.value⟩

/-- The addresses of the strings of an entry. -/
def HeaderEntry.addrs (e : HeaderEntry) : List Nat := [e.keyAddr, e.valueAddr]

@[simp] theorem HeaderEntry.pointers_slot (e : HeaderEntry) :
    e.slot.pointers = [.live e.keyAddr e.header.key, .live e.valueAddr e.header.value] := rfl

/-- The array is allocated for `header_count` slots, those in front of `header_index` are the
entries, and the others are `tail`. -/
structure HeaderArray.LaidOut (arr : HeaderArray) (entries : List HeaderEntry)
    (tail : List HeaderSlot) : Prop where
  slots : arr.slots = some (entries.map HeaderEntry.slot ++ tail)
  index : arr.headerIndex = entries.length
  count : arr.headerCount = entries.length + tail.length

/-- The entries share no string. -/
def Unshared (entries : List HeaderEntry) : Prop := (entries.flatMap HeaderEntry.addrs).Nodup

theorem HeaderArray.LaidOut.wellFormed {arr : HeaderArray} {entries : List HeaderEntry}
    {tail : List HeaderSlot} (h : arr.LaidOut entries tail) : arr.WellFormed :=
  ⟨⟨_, h.slots, by simp [h.count]⟩, by rw [h.index, h.count]; exact Nat.le_add_right _ _⟩

theorem HeaderArray.LaidOut.take {arr : HeaderArray} {entries : List HeaderEntry}
    {tail : List HeaderSlot} (h : arr.LaidOut entries tail) :
    (arr.slots.getD []).take arr.headerIndex = entries.map HeaderEntry.slot := by
  rw [h.slots, h.index, Option.getD_some]
  exact List.take_left' (List.length_map _)

/-- `create_headers` lays out no entries in front of empty slots. -/
theorem createHeaders_laidOut (n : Nat) :
    HeaderArray.LaidOut ⟨some (createHeaders n), 0, n⟩ [] (createHeaders n) :=
  ⟨rfl, rfl, by simp [createHeaders]⟩

/-! ## `add_header` on a layout -/

/-- Filling the first slot behind the entries. -/
theorem fillSlot_laidOut (entries : List HeaderEntry) (slot : HeaderSlot)
    (rest : List HeaderSlot) (keyAddr valueAddr : Nat) (key value : List UInt8) :
    ∃ arr', fillSlot ⟨true, some keyAddr, some valueAddr⟩
        (entries.map HeaderEntry.slot ++ slot :: rest) entries.length
        (entries.length + 1 + rest.length) key value = (0, arr') ∧
      arr'.LaidOut (entries ++ [⟨⟨key, value⟩, keyAddr, valueAddr⟩]) rest := by
  refine ⟨_, rfl, ⟨?_, by simp, by simp⟩⟩
  simp only [Option.some.injEq]
  rw [List.set_append_right _ _ (by simp)]
  simp [HeaderEntry.slot]

/-- An `add_header` whose allocations succeed puts its entry behind the others, in the first
slot that is not in use; the other slots keep what they hold. -/
theorem addHeader_laidOut {arr : HeaderArray} {entries : List HeaderEntry}
    {tail : List HeaderSlot} (h : arr.LaidOut entries tail) (keyAddr valueAddr : Nat)
    (key value : List UInt8) :
    ∃ arr', addHeader ⟨true, some keyAddr, some valueAddr⟩ arr key value = (0, arr') ∧
      arr'.LaidOut (entries ++ [⟨⟨key, value⟩, keyAddr, valueAddr⟩]) (tail.drop 1) := by
  have hslots := h.slots
  unfold addHeader
  rw [h.index, h.count]
  cases tail with
  | nil =>
    -- all slots are in use: the array grows by the one that is filled
    have hresize : resize (entries.map HeaderEntry.slot) (entries.length + 1) =
        entries.map HeaderEntry.slot ++ [⟨.junk, .junk⟩] := by simp [resize]
    rw [List.append_nil] at hslots
    rw [List.length_nil, Nat.add_zero, if_pos le_rfl, if_pos rfl, hslots, Option.getD_some,
      hresize]
    exact fillSlot_laidOut entries _ [] keyAddr valueAddr key value
  | cons slot rest =>
    have hcount : entries.length + (slot :: rest).length = entries.length + 1 + rest.length := by
      rw [List.length_cons]
      omega
    rw [hcount, if_neg (by omega), hslots, Option.getD_some]
    exact fillSlot_laidOut entries slot rest keyAddr valueAddr key value

/-! ## `remove_header` on a layout -/

/-- The search passes all entries when none of them has the key. -/
theorem keyIndex_missing {key : List UInt8} {entries : List HeaderEntry}
    (h : ∀ e ∈ entries, e.header.key ≠ key) :
    keyIndex key (entries.map HeaderEntry.slot) = some none := by
  induction entries with
  | nil => rfl
  | cons e entries ih =>
    obtain ⟨hhead, hrest⟩ := List.forall_mem_cons.mp h
    simp only [List.map_cons, keyIndex, HeaderEntry.slot, if_neg hhead]
    simpa using ih hrest

/-- The search stops at the first entry that has the key. -/
theorem keyIndex_first {key : List UInt8} {before : List HeaderEntry} {e : HeaderEntry}
    (hbefore : ∀ e' ∈ before, e'.header.key ≠ key) (he : e.header.key = key)
    (after : List HeaderEntry) :
    keyIndex key ((before ++ e :: after).map HeaderEntry.slot) = some (some before.length) := by
  induction before with
  | nil => simp [keyIndex, HeaderEntry.slot, he]
  | cons e' before ih =>
    -- the head is passed over, and the position found behind it moves by one
    obtain ⟨hhead, hrest⟩ := List.forall_mem_cons.mp hbefore
    simp only [List.cons_append, List.map_cons, keyIndex, HeaderEntry.slot, if_neg hhead]
    simpa using ih hrest

/-- The shift moves the slots behind position `j` by one; the last of them stays where it
was as well. -/
theorem shiftLeft_append (before : List HeaderSlot) (slot : HeaderSlot)
    (after tail : List HeaderSlot) :
    shiftLeft after.length before.length (before ++ slot :: after ++ tail) =
      before ++ after ++ after.getLastD slot :: tail := by
  induction after generalizing before slot with
  | nil => simp [shiftLeft]
  | cons next after ih =>
    have hnext : (before ++ slot :: (next :: after) ++ tail).getD (before.length + 1)
        ⟨.junk, .junk⟩ = next := by simp
    have hset : (before ++ slot :: (next :: after) ++ tail).set before.length next =
        (before ++ [next]) ++ next :: after ++ tail := by simp
    have hstep := ih (before ++ [next]) next
    rw [List.length_append, List.length_singleton] at hstep
    rw [List.length_cons, shiftLeft, hnext, hset, hstep, List.getLastD_cons]
    simp

/-- A pointer to a string that stays allocated does not change. -/
theorem StrPtr.release_of_notMem {freed : List Nat} {addr : Nat} (h : addr ∉ freed)
    (text : List UInt8) : (StrPtr.live addr text).release freed = .live addr text := by
  simp [StrPtr.release, h]

theorem HeaderEntry.release_slot {freed : List Nat} {e : HeaderEntry}
    (h : ∀ addr ∈ e.addrs, addr ∉ freed) : e.slot.release freed = e.slot := by
  simp only [HeaderSlot.release, HeaderEntry.slot]
  rw [StrPtr.release_of_notMem (h _ (by simp [HeaderEntry.addrs])),
    StrPtr.release_of_notMem (h _ (by simp [HeaderEntry.addrs]))]

/-- Freeing the strings of an entry leaves entries that share none of them as they are. -/
theorem map_release_slots {freed : List Nat} {entries : List HeaderEntry}
    (h : ∀ addr ∈ entries.flatMap HeaderEntry.addrs, addr ∉ freed) :
    (entries.map HeaderEntry.slot).map (HeaderSlot.release freed) =
      entries.map HeaderEntry.slot := by
  rw [List.map_map]
  apply List.map_congr_left
  intro e he
  exact HeaderEntry.release_slot fun addr ha => h addr (List.mem_flatMap_of_mem he ha)

/-- The slot of an entry whose strings have been freed. -/
def HeaderEntry.dangling (e : HeaderEntry) : HeaderSlot :=
  ⟨.freed e.keyAddr, .freed e.valueAddr⟩

/-- What is in the first slot behind the entries when one of them has been removed: a second
copy of the last entry, or the slot of the removed entry, if that was the last one. -/
def vacated (e : HeaderEntry) (after : List HeaderEntry) : HeaderSlot :=
  (after.map HeaderEntry.slot).getLastD e.dangling

/-- `free_header` of one entry of a list that shares no string: its own slot dangles, and the
other entries keep theirs. -/
theorem freeHeader_entry {before after : List HeaderEntry} {e : HeaderEntry}
    (tail : List HeaderSlot) (h : Unshared (before ++ e :: after)) :
    freeHeader before.length ((before ++ e :: after).map HeaderEntry.slot ++ tail) =
      some (before.map HeaderEntry.slot ++ e.dangling :: after.map HeaderEntry.slot ++
        tail.map (HeaderSlot.release e.addrs)) := by
  -- the addresses of `e` are its own
  simp only [Unshared, List.flatMap_append, List.flatMap_cons, List.nodup_append] at h
  obtain ⟨-, ⟨hown, -, hafter⟩, hbefore⟩ := h
  have hne : e.valueAddr ≠ e.keyAddr := by
    simp only [HeaderEntry.addrs, List.nodup_cons, List.mem_singleton] at hown
    exact fun heq => hown.1 heq.symm
  have hslot : ((before ++ e :: after).map HeaderEntry.slot ++ tail)[before.length]? =
      some e.slot := by simp
  have hfree : freePointers [] e.slot.pointers = some e.addrs := by
    simp [freePointers, HeaderEntry.addrs, hne]
  have hdangle : e.slot.release e.addrs = e.dangling := by
    simp [HeaderSlot.release, HeaderEntry.slot, StrPtr.release, HeaderEntry.addrs,
      HeaderEntry.dangling]
  have hb : (before.map HeaderEntry.slot).map (HeaderSlot.release e.addrs) =
      before.map HeaderEntry.slot :=
    map_release_slots fun addr ha he =>
      hbefore addr ha addr (List.mem_append_left _ he) rfl
  have ha : (after.map HeaderEntry.slot).map (HeaderSlot.release e.addrs) =
      after.map HeaderEntry.slot :=
    map_release_slots fun addr ha he => hafter addr he addr ha rfl
  simp only [freeHeader, hslot, Option.bind_eq_bind, Option.bind_some, hfree]
  rw [List.map_append, List.map_append, List.map_append, hb, List.map_cons, List.map_cons,
    hdangle, ha]

/-- A `remove_header` whose key no entry has. -/
theorem removeHeader_missing {arr : HeaderArray} {entries : List HeaderEntry}
    {tail : List HeaderSlot} (h : arr.LaidOut entries tail) {key : List UInt8}
    (hkey : ∀ e ∈ entries, e.header.key ≠ key) (realloc : Bool) :
    removeHeader realloc arr key = some (-1, arr) := by
  have htake := h.take
  rw [h.slots, Option.getD_some] at htake
  simp only [removeHeader, h.slots, Option.bind_eq_bind, Option.bind_some, htake,
    keyIndex_missing hkey]

/-- Shrinking an array to a size that still has room for its first slots and one more. -/
theorem resize_append {slots tail : List HeaderSlot} (slot : HeaderSlot) {n : Nat}
    (hroom : slots.length < n) (hle : n ≤ slots.length + 1 + tail.length) :
    resize (slots ++ slot :: tail) n = slots ++ slot :: tail.take (n - slots.length - 1) := by
  obtain ⟨k, rfl⟩ : ∃ k, n = slots.length + 1 + k := ⟨n - (slots.length + 1), by omega⟩
  have hnew : slots.length + 1 + k - (slots ++ slot :: tail).length = 0 := by
    simp only [List.length_append, List.length_cons]
    omega
  have hk : slots.length + 1 + k - slots.length - 1 = k := by omega
  rw [resize, hnew, List.replicate_zero, List.append_nil, hk, Nat.add_assoc,
    List.take_length_add_append, Nat.add_comm 1 k, List.take_succ_cons]

/-- A `remove_header` whose key is that of `e`, and of no entry in front of it: the entry is
gone, and the shift has vacated a slot behind the entries, which stays in the array. -/
theorem removeHeader_found {arr : HeaderArray} {before after : List HeaderEntry}
    {e : HeaderEntry} {tail : List HeaderSlot} (h : arr.LaidOut (before ++ e :: after) tail)
    (hown : Unshared (before ++ e :: after)) {key : List UInt8} (he : e.header.key = key)
    (hbefore : ∀ e' ∈ before, e'.header.key ≠ key) :
    ∃ arr' tail', removeHeader true arr key = some (0, arr') ∧
      arr'.LaidOut (before ++ after) (vacated e after :: tail') := by
  have htake := h.take
  rw [h.slots, Option.getD_some, h.index] at htake
  have hmoves : (before ++ e :: after).length - 1 - before.length =
      (after.map HeaderEntry.slot).length := by simp
  have hindex : (before ++ e :: after).length - 1 = (before ++ after).length := by simp
  have hbeforeLen : (before.map HeaderEntry.slot).length = before.length := List.length_map _
  have hslots := shiftLeft_append (before.map HeaderEntry.slot) e.dangling
    (after.map HeaderEntry.slot) (tail.map (HeaderSlot.release e.addrs))
  rw [hbeforeLen, ← hmoves, ← List.map_append, ← vacated] at hslots
  have hcount : arr.headerCount = (before ++ after).length + 1 + tail.length := by
    simp only [h.count, List.length_append, List.length_cons]
    omega
  simp only [removeHeader, h.slots, Option.bind_eq_bind, Option.bind_some, h.index, htake,
    keyIndex_first hbefore he, freeHeader_entry tail hown, hslots, if_true]
  rw [hindex]
  split
  · -- the halved array still has room for the entries and for the slot behind them
    rename_i hhalf
    refine ⟨_, (tail.map (HeaderSlot.release e.addrs)).take
      (arr.headerCount / 2 - (before ++ after).length - 1), rfl, ⟨?_, rfl, ?_⟩⟩
    · have hroom : arr.headerCount / 2 ≤ (before ++ after).length + 1 + tail.length := by omega
      rw [resize_append _ (by simpa using hhalf.2) (by simpa using hroom)]
      simp
    · simp only [List.length_cons, List.length_take, List.length_map]
      omega
  · refine ⟨_, tail.map (HeaderSlot.release e.addrs), rfl, ⟨rfl, rfl, ?_⟩⟩
    simp only [hcount, List.length_cons, List.length_map]
    omega

/-! ## Sequences of calls -/

/-- A call on a header array. -/
inductive HeaderCall
  | add (key value : List UInt8)
  | remove (key : List UInt8)
  deriving DecidableEq, Repr

/-- What a call does to a plain list of headers, and what it returns. -/
def listCall (headers : List Header) : HeaderCall → Int × List Header
  | .add key value => (0, headers ++ [⟨key, value⟩])
  | .remove key =>
    if headers.any (·.key == key) then (0, headers.eraseP (·.key == key)) else (-1, headers)

/-- An array in memory. An address stands for one allocation: `nextAddr` and those above it
have not been handed out. -/
structure HeaderHeap where
  arr : HeaderArray
  nextAddr : Nat
  deriving DecidableEq, Repr

/-- The array of `create_headers`, when its allocation succeeds. -/
def HeaderHeap.created (initialCount : Nat) : HeaderHeap :=
  ⟨⟨some (createHeaders initialCount), 0, initialCount⟩, 0⟩

/-- A call on the array whose allocations succeed; the result `none` is a fault. -/
def headerCall (m : HeaderHeap) : HeaderCall → Option (Int × HeaderHeap)
  | .add key value =>
    let (ret, arr) :=
      addHeader ⟨true, some m.nextAddr, some (m.nextAddr + 1)⟩ m.arr key value
    some (ret, ⟨arr, m.nextAddr + 2⟩)
  | .remove key => (removeHeader true m.arr key).map fun (ret, arr) => (ret, ⟨arr, m.nextAddr⟩)

/-- The first `header_index` slots of the array hold the headers of a list, in its order. -/
def HeaderArray.Represents (arr : HeaderArray) (headers : List Header) : Prop :=
  ((arr.slots.getD []).take arr.headerIndex).map HeaderSlot.header? = headers.map some

/-- The array stores its entries at addresses that have been handed out, each of them once. -/
structure HeaderHeap.Stores (m : HeaderHeap) (entries : List HeaderEntry)
    (tail : List HeaderSlot) : Prop where
  laidOut : m.arr.LaidOut entries tail
  unshared : Unshared entries
  below : ∀ addr ∈ entries.flatMap HeaderEntry.addrs, addr < m.nextAddr

theorem HeaderHeap.created_stores (initialCount : Nat) :
    (HeaderHeap.created initialCount).Stores [] (createHeaders initialCount) :=
  ⟨createHeaders_laidOut initialCount, List.nodup_nil, by simp⟩

theorem HeaderHeap.Stores.represents {m : HeaderHeap} {entries : List HeaderEntry}
    {tail : List HeaderSlot} (h : m.Stores entries tail) :
    m.arr.Represents (entries.map HeaderEntry.header) := by
  unfold HeaderArray.Represents
  rw [h.laidOut.take, List.map_map, List.map_map]
  rfl

/-- An `add_header` stores one entry more, in the first slot of the tail. -/
theorem HeaderHeap.Stores.add {m : HeaderHeap} {entries : List HeaderEntry}
    {tail : List HeaderSlot} (h : m.Stores entries tail) (key value : List UInt8) :
    ∃ m', headerCall m (.add key value) = some (0, m') ∧
      m'.Stores (entries ++ [⟨⟨key, value⟩, m.nextAddr, m.nextAddr + 1⟩]) (tail.drop 1) := by
  obtain ⟨arr', hadd, hlaid⟩ := addHeader_laidOut h.laidOut m.nextAddr (m.nextAddr + 1) key value
  refine ⟨⟨arr', m.nextAddr + 2⟩, by simp only [headerCall, hadd], hlaid, ?_, ?_⟩
  · -- both addresses are new
    have hnew : ∀ addr ∈ entries.flatMap HeaderEntry.addrs,
        addr ≠ m.nextAddr ∧ addr ≠ m.nextAddr + 1 := by
      intro addr haddr
      have := h.below addr haddr
      omega
    simp only [Unshared, List.flatMap_append, List.flatMap_singleton, HeaderEntry.addrs]
    refine List.nodup_append.mpr ⟨h.unshared, by simp, ?_⟩
    intro addr haddr addr' haddr'
    obtain ⟨hkey, hvalue⟩ := hnew addr haddr
    rcases List.mem_pair.mp haddr' with rfl | rfl
    · exact hkey
    · exact hvalue
  · intro addr haddr
    simp only [List.flatMap_append, List.mem_append, List.flatMap_singleton, HeaderEntry.addrs,
      List.mem_pair] at haddr
    rcases haddr with haddr | rfl | rfl
    · exact Nat.lt_add_right 2 (h.below addr haddr)
    · exact Nat.lt_add_of_pos_right Nat.two_pos
    · exact Nat.lt_succ_self _

/-- A `remove_header` without an entry to remove changes nothing. -/
theorem HeaderHeap.Stores.remove_missing {m : HeaderHeap} {entries : List HeaderEntry}
    {tail : List HeaderSlot} (h : m.Stores entries tail) {key : List UInt8}
    (hkey : ∀ e ∈ entries, e.header.key ≠ key) :
    headerCall m (.remove key) = some (-1, m) := by
  simp [headerCall, removeHeader_missing h.laidOut hkey]

/-- A `remove_header` takes out the first entry with the key, and vacates a slot. -/
theorem HeaderHeap.Stores.remove_found {m : HeaderHeap} {before after : List HeaderEntry}
    {e : HeaderEntry} {tail : List HeaderSlot} (h : m.Stores (before ++ e :: after) tail)
    {key : List UInt8} (he : e.header.key = key)
    (hbefore : ∀ e' ∈ before, e'.header.key ≠ key) :
    ∃ m' tail', headerCall m (.remove key) = some (0, m') ∧
      m'.Stores (before ++ after) (vacated e after :: tail') := by
  obtain ⟨arr', tail', hremove, hlaid⟩ := removeHeader_found h.laidOut h.unshared he hbefore
  have hsub : (before ++ after).Sublist (before ++ e :: after) :=
    (List.sublist_cons_self e after).append_left before
  refine ⟨⟨arr', m.nextAddr⟩, tail', by simp only [headerCall, hremove, Option.map_some], hlaid,
    ?_, ?_⟩
  · exact h.unshared.sublist (hsub.flatMap HeaderEntry.addrs)
  · intro addr haddr
    exact h.below addr ((hsub.flatMap HeaderEntry.addrs).subset haddr)

/-- The array stores the headers of a list. -/
def HeaderHeap.StoresList (m : HeaderHeap) (headers : List Header) : Prop :=
  ∃ entries tail, m.Stores entries tail ∧ entries.map HeaderEntry.header = headers

/-- One call: the array does what a plain list does. -/
theorem headerCall_refines (m : HeaderHeap) (headers : List Header) (call : HeaderCall)
    (h : m.StoresList headers) :
    ∃ m', headerCall m call = some ((listCall headers call).1, m') ∧
      m'.StoresList (listCall headers call).2 := by
  obtain ⟨entries, tail, hstores, rfl⟩ := h
  cases call with
  | add key value =>
    obtain ⟨m', hcall, hstores'⟩ := hstores.add key value
    exact ⟨m', hcall, _, _, hstores', by simp [listCall]⟩
  | remove key =>
    by_cases hany : ∃ e ∈ entries, e.header.key = key
    · obtain ⟨e₀, hmem, hkey₀⟩ := hany
      -- the list loses its first header with the key, as the array does
      obtain ⟨e, before, after, hbefore, he, rfl, herase⟩ :=
        List.exists_of_eraseP (p := fun e => e.header.key == key) hmem (by simpa using hkey₀)
      obtain ⟨m', tail', hcall, hstores'⟩ :=
        hstores.remove_found (by simpa using he) (by simpa using hbefore)
      have hlist : listCall ((before ++ e :: after).map HeaderEntry.header) (.remove key) =
          (0, (before ++ after).map HeaderEntry.header) := by
        have hany' : ((before ++ e :: after).map HeaderEntry.header).any (·.key == key) := by
          simp only [List.any_map, List.any_append, List.any_cons, Function.comp_apply, he,
            Bool.true_or, Bool.or_true]
        rw [listCall, if_pos hany', List.eraseP_map, ← herase]
        rfl
      rw [hlist]
      exact ⟨m', hcall, _, _, hstores', rfl⟩
    · have hnone : ∀ e ∈ entries, e.header.key ≠ key := by simpa using hany
      have hlist : listCall (entries.map HeaderEntry.header) (.remove key) =
          (-1, entries.map HeaderEntry.header) := by
        rw [listCall, if_neg (by simpa using hnone)]
      rw [hlist]
      exact ⟨m, hstores.remove_missing hnone, entries, tail, hstores, rfl⟩

/-- Any sequence of calls whose allocations succeed, from any initial capacity: no call
faults, the calls return what they return on a plain list, and the array represents that
list, within the slots it is allocated for. A removal without a header to remove would leave
the array as it is. -/
theorem headerCalls_refine (initialCount : Nat) (calls : List HeaderCall) :
    ∃ m, faultTrace headerCall (HeaderHeap.created initialCount) calls =
        some ((trace listCall [] calls).1, m) ∧
      m.arr.Represents (trace listCall [] calls).2 ∧ m.arr.WellFormed ∧
      ∀ key, (∀ h ∈ (trace listCall [] calls).2, h.key ≠ key) →
        headerCall m (.remove key) = some (-1, m) := by
  have hcreated : (HeaderHeap.created initialCount).StoresList [] :=
    ⟨[], _, HeaderHeap.created_stores initialCount, rfl⟩
  obtain ⟨m, htrace, entries, tail, hstores, hheaders⟩ :=
    faultTrace_refines headerCall_refines hcreated calls
  refine ⟨m, htrace, hheaders ▸ hstores.represents, hstores.laidOut.wellFormed, ?_⟩
  intro key hkey
  rw [← hheaders] at hkey
  exact hstores.remove_missing fun e he => hkey _ (List.mem_map_of_mem he)

end SelectServer
