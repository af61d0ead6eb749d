import Mathlib.Tactic.Ring
import SelectServer.CLib.Blocks
import SelectServer.CLib.Lines
import SelectServer.CLib.Numbers

/-!
# Header lists of `shared/http.c`

The growable header array (`create_headers`, `add_header`), its text form
(`serialize_headers`) and the parser (`deserialize_headers`).

A slot of the array holds two pointers, so that what a failing allocation leaves behind
(a NULL, a freed string) is visible. A message only keeps what the array contains
(`HeaderArray.contents`): the keys and values of its first `header_index` slots.
-/

namespace SelectServer

open CLib

/-! ## Results -/

/-- What undefined behaviour a run ends in. The last two are stores behind the end of an array
and of an allocated block. -/
inductive Fault
  | nullMessage
  | unassignedField
  | arrayOverrun
  | blockOverrun
  deriving DecidableEq, Repr

/-- The result of a function that returns a pointer: NULL, an object, or no result. -/
inductive Outcome (α : Type)
  | null
  | returned (a : α)
  | fault (f : Fault)
  deriving DecidableEq, Repr

/-- Does the function return an object? -/
def Outcome.returns {α : Type} : Outcome α → Bool
  | .returned _ => true
  | .null | .fault _ => false

/-! ## The header array -/

/-- A header as text. -/
structure Header where
  key : List UInt8
  value : List UInt8
  deriving DecidableEq, Repr

/-- A `char *` field of a header slot. -/
inductive StrPtr
  | null
  | live (addr : Nat) (text : List UInt8)
  | freed (addr : Nat)
  | junk
  deriving DecidableEq, Repr

/-- A slot of the array. -/
structure HeaderSlot where
  key : StrPtr
  value : StrPtr
  deriving DecidableEq, Repr

/-- The array with the two counters its functions pass around; `slots = none` is a NULL
array. -/
structure HeaderArray where
  slots : Option (List HeaderSlot)
  headerIndex : Nat
  headerCount : Nat
  deriving DecidableEq, Repr

/-- The allocation results of one `add_header` call: does the `realloc` succeed, and the
addresses of the two copies (`none` when `malloc` returns NULL). -/
structure HeaderAlloc where
  realloc : Bool
  key : Option Nat
  value : Option Nat
  deriving DecidableEq, Repr

/-- No allocation of the call fails. -/
def HeaderAlloc.Succeeds (a : HeaderAlloc) : Prop :=
  a.realloc = true ∧ a.key.isSome = true ∧ a.value.isSome = true

/-- Both copies of an `add_header` call succeed. -/
def HeaderAlloc.copies (a : HeaderAlloc) : Bool := a.key.isSome && a.value.isSome

/-- `INITIAL_HEADER_COUNT`. -/
def initialHeaderCount : Nat := 1

/-- `create_headers`: zeroed slots. -/
def createHeaders (initialCount : Nat) : List HeaderSlot :=
  List.replicate initialCount ⟨.null, .null⟩

/-- `realloc` to `n` slots: new ones are uninitialised. -/
def resize (slots : List HeaderSlot) (n : Nat) : List HeaderSlot :=
  slots.take n ++ List.replicate (n - slots.length) ⟨.junk, .junk⟩

/-- The part of `add_header` behind the growth of the array: copy key and value into the
slot at `header_index`. -/
def fillSlot (a : HeaderAlloc) (slots : List HeaderSlot) (headerIndex headerCount : Nat)
    (key value : List UInt8) : Int × HeaderArray :=
  let slot := slots.getD headerIndex ⟨.junk, .junk⟩
  match a.key with
  | none =>
    (-1, ⟨some (slots.set headerIndex { slot with key := .null }), headerIndex, headerCount⟩)
  | some keyAddr =>
    match a.value with
    | none =>
      -- the key is freed, its pointer stays in the slot
      (-1, ⟨some (slots.set headerIndex ⟨.freed keyAddr, .null⟩), headerIndex, headerCount⟩)
    | some valueAddr =>
      (0, ⟨some (slots.set headerIndex ⟨.live keyAddr key, .live valueAddr value⟩),
        headerIndex + 1, headerCount⟩)

/-- `add_header`, for an array that is not NULL. A failing `realloc` overwrites the array
pointer with NULL and leaves the count increased. -/
def addHeader (a : HeaderAlloc) (arr : HeaderArray) (key value : List UInt8) :
    Int × HeaderArray :=
  if arr.headerCount ≤ arr.headerIndex then
    if a.realloc then
      fillSlot a (resize (arr.slots.getD []) (arr.headerCount + 1)) arr.headerIndex
        (arr.headerCount + 1) key value
    else (-1, ⟨none, arr.headerIndex, arr.headerCount + 1⟩)
  else fillSlot a (arr.slots.getD []) arr.headerIndex arr.headerCount key value

/-- The header a slot holds, when both of its strings are live. -/
def HeaderSlot.header? : HeaderSlot → Option Header
  | ⟨.live _ key, .live _ value⟩ => some ⟨key, value⟩
  | _ => none

/-- The headers in the first `header_index` slots. -/
def HeaderArray.contents (arr : HeaderArray) : List Header :=
  ((arr.slots.getD []).take arr.headerIndex).filterMap HeaderSlot.header?

/-- `add_header` for each header, its result ignored; `none` is the use of a NULL array. -/
def addHeaders (alloc : Nat → HeaderAlloc) : Nat → HeaderArray → List Header → Option HeaderArray
  | _, arr, [] => some arr
  | k, arr, h :: hs =>
    if arr.slots.isSome then addHeaders alloc (k + 1) (addHeader (alloc k) arr h.key h.value).2 hs
    else none

/-- The headers that `serialize_headers` and `log_headers` read: all `header_count` slots
must hold live strings. -/
def HeaderArray.live (arr : HeaderArray) : Option (List Header) :=
  arr.slots.bind fun slots => slots.mapM HeaderSlot.header?

/-- May the pointer be given to `free`? -/
def StrPtr.freeable : StrPtr → Bool
  | .null | .live _ _ => true
  | .freed _ | .junk => false

/-- May the array be given to `free_headers`? -/
def HeaderArray.freeable (arr : HeaderArray) : Bool :=
  (arr.slots.getD []).all fun s => s.key.freeable && s.value.freeable

/-- The array is allocated for `header_count` slots and `header_index` does not exceed it. -/
structure HeaderArray.WellFormed (arr : HeaderArray) : Prop where
  allocated : ∃ slots, arr.slots = some slots ∧ slots.length = arr.headerCount
  index_le : arr.headerIndex ≤ arr.headerCount

theorem createHeaders_wellFormed (n : Nat) :
    HeaderArray.WellFormed ⟨some (createHeaders n), 0, n⟩ :=
  ⟨⟨_, rfl, by simp [createHeaders]⟩, Nat.zero_le _⟩

@[simp] theorem contents_createHeaders (n : Nat) :
    HeaderArray.contents ⟨some (createHeaders n), 0, n⟩ = [] := by
  simp [HeaderArray.contents]

private theorem fillSlot_of_ret_zero {a : HeaderAlloc} {slots : List HeaderSlot}
    {index count : Nat} {key value : List UInt8} {arr : HeaderArray}
    (h : fillSlot a slots index count key value = (0, arr)) (hlen : slots.length = count)
    (hlt : index < count) :
    arr.WellFormed ∧ arr.headerIndex = index + 1 ∧
      arr.contents = (slots.take index).filterMap HeaderSlot.header? ++ [⟨key, value⟩] := by
  unfold fillSlot at h
  split at h
  · simp at h
  · rename_i ka hka
    split at h
    · simp at h
    · rename_i va hva
      simp only [Prod.mk.injEq, true_and] at h
      subst h
      refine ⟨⟨⟨_, rfl, by simp [hlen]⟩, hlt⟩, rfl, ?_⟩
      have htake : (slots.set index ⟨.live ka key, .live va value⟩).take (index + 1) =
          slots.take index ++ [⟨.live ka key, .live va value⟩] := by
        rw [List.take_succ_eq_append_getElem (by simp; omega), List.take_set_of_le le_rfl]
        simp
      simp [HeaderArray.contents, htake, HeaderSlot.header?]

/-- In an array with a free slot `add_header` goes well exactly if both of its copies do. -/
theorem addHeader_ret_eq_zero_iff (a : HeaderAlloc) {arr : HeaderArray}
    (hroom : arr.headerIndex < arr.headerCount) (key value : List UInt8) :
    (addHeader a arr key value).1 = 0 ↔ a.copies = true := by
  rw [addHeader, if_neg hroom.not_ge, fillSlot, HeaderAlloc.copies]
  cases a.key with
  | none => simp
  | some keyAddr => cases a.value <;> simp

/-- An `add_header` that returns 0 has appended one header. -/
theorem addHeader_of_ret_zero {a : HeaderAlloc} {arr arr' : HeaderArray}
    {key value : List UInt8} (h : addHeader a arr key value = (0, arr'))
    (hwf : arr.WellFormed) :
    arr'.WellFormed ∧ arr'.headerIndex = arr.headerIndex + 1 ∧
      arr'.contents = arr.contents ++ [⟨key, value⟩] := by
  obtain ⟨⟨slots, hslots, hlen⟩, hle⟩ := hwf
  have hcont : arr.contents = (slots.take arr.headerIndex).filterMap HeaderSlot.header? := by
    simp [HeaderArray.contents, hslots]
  rw [hcont]
  unfold addHeader at h
  split at h
  · split at h
    · -- growing the array keeps the slots in use
      have hresize : (resize slots (arr.headerCount + 1)).length = arr.headerCount + 1 := by
        simp only [resize, List.length_append, List.length_take, List.length_replicate]
        omega
      have htake : (resize slots (arr.headerCount + 1)).take arr.headerIndex =
          slots.take arr.headerIndex := by
        rw [resize, List.take_append_of_le_length (by simp; omega), List.take_take]
        congr 1
        omega
      rw [hslots, Option.getD_some] at h
      have := fillSlot_of_ret_zero h hresize (by omega)
      rwa [htake] at this
    · simp at h
  · rw [hslots, Option.getD_some] at h
    exact fillSlot_of_ret_zero h hlen (by omega)

/-- With successful allocations `add_header` returns 0. -/
theorem addHeader_ret {a : HeaderAlloc} (ha : a.Succeeds) (arr : HeaderArray)
    (key value : List UInt8) : ∃ arr', addHeader a arr key value = (0, arr') := by
  obtain ⟨hrealloc, hkey, hvalue⟩ := ha
  obtain ⟨ka, hka⟩ := Option.isSome_iff_exists.mp hkey
  obtain ⟨va, hva⟩ := Option.isSome_iff_exists.mp hvalue
  simp only [addHeader, hrealloc, if_true, fillSlot, hka, hva]
  split <;> exact ⟨_, rfl⟩

theorem addHeader_headerCount (a : HeaderAlloc) (arr : HeaderArray) (key value : List UInt8) :
    (addHeader a arr key value).2.headerCount =
      if arr.headerCount ≤ arr.headerIndex then arr.headerCount + 1 else arr.headerCount := by
  have hfill : ∀ slots index count, (fillSlot a slots index count key value).2.headerCount =
      count := by
    intro slots index count
    unfold fillSlot
    split
    · rfl
    · split <;> rfl
  unfold addHeader
  split
  · split
    · exact hfill _ _ _
    · rfl
  · exact hfill _ _ _

private theorem mapM_eq_some_filterMap {α β : Type*} {f : α → Option β} {l : List α}
    (h : (l.filterMap f).length = l.length) : l.mapM f = some (l.filterMap f) := by
  induction l with
  | nil => rfl
  | cons a l ih =>
    cases ha : f a with
    | none =>
      have hle := List.length_filterMap_le f l
      simp only [List.filterMap_cons, ha, List.length_cons] at h
      omega
    | some b =>
      simp only [List.filterMap_cons, ha, List.length_cons, Nat.add_right_cancel_iff] at h
      simp [ha, ih h]

/-- Adding enough headers to fill the array gives an array all of whose slots are live. -/
theorem addHeaders_of_succeeds {alloc : Nat → HeaderAlloc} (ha : ∀ k, (alloc k).Succeeds)
    (hs : List Header) (k : Nat) {arr : HeaderArray} (hwf : arr.WellFormed)
    (hcont : arr.contents.length = arr.headerIndex)
    (hroom : arr.headerCount ≤ arr.headerIndex + hs.length) :
    ∃ arr', addHeaders alloc k arr hs = some arr' ∧ arr'.live = some (arr.contents ++ hs) := by
  induction hs generalizing k arr with
  | nil =>
    -- the array is full, so the first `header_index` slots are all there are
    obtain ⟨⟨slots, hslots, hlen⟩, hle⟩ := hwf
    have htake : slots.take arr.headerIndex = slots :=
      List.take_of_length_le (by simp only [List.length_nil] at hroom; omega)
    have hall : arr.contents = slots.filterMap HeaderSlot.header? := by
      simp [HeaderArray.contents, hslots, htake]
    refine ⟨arr, rfl, ?_⟩
    have hfull : (slots.filterMap HeaderSlot.header?).length = slots.length := by
      simp only [List.length_nil] at hroom
      rw [← hall, hcont, hlen]
      omega
    simp [HeaderArray.live, hslots, hall, mapM_eq_some_filterMap hfull]
  | cons h hs ih =>
    obtain ⟨arr₁, hadd⟩ := addHeader_ret (ha k) arr h.key h.value
    obtain ⟨hwf₁, hidx₁, hcont₁⟩ := addHeader_of_ret_zero hadd hwf
    have hcount₁ := addHeader_headerCount (alloc k) arr h.key h.value
    rw [hadd] at hcount₁
    -- one slot more is in use, and the array has grown by one if it was full
    obtain ⟨arr', hadds, hlive⟩ := ih (k + 1) hwf₁ (by simp [hcont₁, hcont, hidx₁])
      (by
        simp only [List.length_cons] at hroom
        rw [hcount₁, hidx₁]
        split <;> omega)
    obtain ⟨slots, hslots, -⟩ := hwf.allocated
    refine ⟨arr', ?_, by simp [hlive, hcont₁]⟩
    simp [addHeaders, hslots, hadd, hadds]

/-! ## Text form -/

/-- `key_value_separator`. -/
def keyValueSeparator : List UInt8 := bytes ": "

/-- `line_ending`. -/
def lineEnding : List UInt8 := bytes "\r\n"

/-- The line of one header. -/
def Header.text (h : Header) : List UInt8 :=
  h.key ++ keyValueSeparator ++ h.value ++ lineEnding

/-- The text of headers. -/
def headersText (headers : List Header) : List UInt8 := headers.flatMap Header.text

/-- The size that `serialize_headers` adds up in an `int`. -/
def headersSize (headers : List Header) : Int :=
  toInt32 (headers.map fun h => (h.key.length + h.value.length + keyValueSeparator.length +
    lineEnding.length : Int)).sum

/-- The strings that `serialize_headers` concatenates for one header. -/
def Header.pieces (h : Header) : List (List UInt8) :=
  [h.key, keyValueSeparator, h.value, lineEnding]

/-- `serialize_headers`: its result, and the string in the buffer it has allocated; NULL stands
for the result `-1`. `alloc` tells whether `malloc` gives what there is to give: `size + 1` bytes
in a `size_t`, none at all for `-1`, and more than there are for every other negative size. -/
def serializeHeaders (alloc : Bool) (junk : Nat → UInt8) (headers : List Header) :
    Outcome (Int × List UInt8) :=
  let size := headersSize headers
  if alloc = true ∧ -1 ≤ size then
    let buffer := (Block.malloc (size + 1).toNat junk).store 0 [0]
    let buffer := buffer.strcats 0 (headers.flatMap Header.pieces)
    let buffer := buffer.store size.toNat [0]
    if buffer.InBounds then .returned (size, buffer.read size.toNat) else .fault .blockOverrun
  else .null

/-- The size that `serialize_headers` computes is the length of the text, as an `int`. -/
theorem headersSize_eq_toInt32 (headers : List Header) :
    headersSize headers = toInt32 (headersText headers).length := by
  have hsum : ((headers.map fun h => (h.key.length + h.value.length + keyValueSeparator.length +
      lineEnding.length : Int)).sum) = (headers.flatMap Header.text).length := by
    induction headers with
    | nil => rfl
    | cons h hs ih =>
      simp only [List.map_cons, List.sum_cons, List.flatMap_cons, List.length_append, Header.text,
        ih]
      push_cast
      ring
  rw [headersSize, headersText, hsum]

/-- It is the length of the text itself when that is an `int`. -/
theorem headersSize_eq {headers : List Header}
    (h : (headersText headers).length < 2 ^ 31) :
    headersSize headers = (headersText headers).length := by
  rw [headersSize_eq_toInt32, toInt32_eq_self (by omega) (by omega)]

theorem flatten_pieces (headers : List Header) :
    (headers.flatMap Header.pieces).flatten = headersText headers := by
  rw [headersText]
  induction headers with
  | nil => rfl
  | cons h hs ih =>
    rw [List.flatMap_cons, List.flatMap_cons, List.flatten_append, ih]
    simp [Header.pieces, Header.text]

/-- With a size that has wrapped around, the text does not fit the buffer. -/
theorem serializeHeaders_of_le {headers : List Header} (h : 2 ^ 31 ≤ (headersText headers).length)
    (junk : Nat → UInt8) :
    serializeHeaders true junk headers =
      if -1 ≤ headersSize headers then .fault .blockOverrun else .null := by
  have hne : headers.flatMap Header.pieces ≠ [] := by
    intro hnil
    have hlen := congrArg List.length (flatten_pieces headers)
    rw [hnil, List.flatten_nil, List.length_nil] at hlen
    omega
  have hlt := (toInt32_bounds (headersText headers).length).2
  rw [← headersSize_eq_toInt32] at hlt
  by_cases hsize : -1 ≤ headersSize headers
  · rw [if_pos hsize]
    simp only [serializeHeaders, true_and, if_pos hsize]
    rw [if_neg]
    rw [Block.inBounds_store_iff, Block.inBounds_strcats_iff, flatten_pieces]
    rintro ⟨⟨-, hfits⟩, -⟩
    have hfits := hfits hne
    rw [Block.size_store, Block.size_malloc] at hfits
    omega
  · simp only [serializeHeaders, hsize, and_false, if_false]

/-- `serialize_headers` writes the text and returns its length, if the length is an `int`. -/
theorem serializeHeaders_of_lt {headers : List Header} (h : (headersText headers).length < 2 ^ 31)
    (junk : Nat → UInt8) :
    serializeHeaders true junk headers =
      .returned ((headersText headers).length, headersText headers) := by
  have hsize := headersSize_eq h
  have hstart : ((Block.malloc ((headersText headers).length + 1) junk).store 0 [0]).Holds 0
      ([] ++ [0]) := Block.holds_store_self _ _ _
  have hhold := hstart.strcats (headers.flatMap Header.pieces)
  rw [flatten_pieces, List.nil_append, List.length_nil] at hhold
  simp only [serializeHeaders, hsize, true_and, Int.toNat_natCast]
  rw [if_pos (by omega), show (((headersText headers).length : Int) + 1).toNat =
    (headersText headers).length + 1 by omega, if_pos]
  · rw [(hhold.left.store _ [0] (Or.inl (Nat.zero_add _).le)).read]
  · rw [Block.inBounds_store_iff, Block.inBounds_strcats_iff, Block.inBounds_store_iff,
      flatten_pieces]
    simp only [Block.size_strcats, Block.size_store, Block.size_malloc, List.length_singleton]
    exact ⟨⟨⟨Block.inBounds_malloc _ _, by omega⟩, fun _ => by omega⟩, le_rfl⟩

/-- What `serialize_headers` returns is the text, with its length. -/
theorem serializeHeaders_eq_returned_iff {alloc : Bool} {junk : Nat → UInt8}
    {headers : List Header} {r : Int × List UInt8} :
    serializeHeaders alloc junk headers = .returned r ↔
      alloc = true ∧ (headersText headers).length < 2 ^ 31 ∧
        r = (((headersText headers).length : Int), headersText headers) := by
  cases alloc with
  | false => simp [serializeHeaders]
  | true =>
    by_cases hlt : (headersText headers).length < 2 ^ 31
    · rw [serializeHeaders_of_lt hlt, Outcome.returned.injEq]
      simp only [hlt, true_and]
      exact eq_comm
    · rw [serializeHeaders_of_le (not_lt.mp hlt)]
      refine iff_of_false (fun h => ?_) fun h => hlt h.2.1
      split at h
      · cases h
      · cases h

/-! ## Parsing -/

/-- What stands behind the NUL that `strtok` left at the end of a token: the rest of the
text with its own terminator, and then the heap. -/
def behindToken (tok : Token) (junk : List UInt8) : List UInt8 :=
  match tok.tail with
  | some rest => rest ++ 0 :: junk
  | none => junk

/-- The header of a line: the key before the first colon, and as value the C string that
starts two bytes behind it, wherever the line ends. -/
def headerOfLine (junk : List UInt8) (tok : Token) : Option Header :=
  match strchr 58 tok.text with
  | none => none
  | some [] => none
  | some (_ :: after) =>
    some ⟨tok.text.takeWhile (· != 58), cstr ((after ++ 0 :: behindToken tok junk).drop 1)⟩

/-- The number of line endings, a run of CR and LF counting once. -/
def countLineEndings (inRun : Bool) : List UInt8 → Nat
  | [] => 0
  | c :: cs =>
    if c = 13 ∨ c = 10 then (if inRun then 0 else 1) + countLineEndings true cs
    else countLineEndings false cs

/-- How the parsing loop ends: at the end of the text, or at an `add_header` that failed. -/
inductive HeadersLoop
  | done (arr : HeaderArray)
  | failed (arr : HeaderArray)
  deriving DecidableEq, Repr

/-- The loop of `deserialize_headers` over the lines; `alloc k` serves the `k`-th
`add_header`. -/
def deserializeHeadersLoop (junk : List UInt8) (alloc : Nat → HeaderAlloc) :
    List Token → Nat → HeaderArray → HeadersLoop
  | [], _, arr => .done arr
  | tok :: toks, k, arr =>
    match headerOfLine junk tok with
    -- a line without colon is skipped
    | none => deserializeHeadersLoop junk alloc toks k arr
    | some h =>
      let (ret, arr') := addHeader (alloc k) arr h.key h.value
      if ret = 0 then deserializeHeadersLoop junk alloc toks (k + 1) arr' else .failed arr'

/-- The memory `deserialize_headers` works with: the results of its two `malloc` calls and
of those in `add_header`, and the heap behind the copy of the text. -/
structure HeadersMemory where
  headers : Bool
  headersCopy : Bool
  alloc : Nat → HeaderAlloc
  junk : List UInt8

/-- No allocation fails. -/
def HeadersMemory.Succeeds (m : HeadersMemory) : Prop :=
  m.headers = true ∧ m.headersCopy = true ∧ ∀ k, (m.alloc k).Succeeds

/-- The allocations that are made for `n` headers succeed, in an array that has room for them. -/
structure HeadersMemory.Holds (m : HeadersMemory) (n : Nat) : Prop where
  headers : m.headers = true
  headersCopy : m.headersCopy = true
  copies : ∀ k < n, (m.alloc k).copies = true

theorem HeadersMemory.Succeeds.holds {m : HeadersMemory} (h : m.Succeeds) (n : Nat) :
    m.Holds n where
  headers := h.1
  headersCopy := h.2.1
  copies k _ := by
    obtain ⟨-, hkey, hvalue⟩ := h.2.2 k
    rw [HeaderAlloc.copies, hkey, hvalue]
    rfl

/-- The two outputs of `deserialize_headers`: the array (`none` for NULL) and what it has
assigned to `*header_count`. -/
structure DeserializedHeaders where
  headers : Option (List Header)
  headerCount : Option Nat
  deriving DecidableEq, Repr

/-- `deserialize_headers`. -/
def deserializeHeaders (m : HeadersMemory) (headersStr : List UInt8) : DeserializedHeaders :=
  let initialCount := max 1 (countLineEndings false headersStr)
  if m.headers && m.headersCopy then
    match deserializeHeadersLoop m.junk m.alloc (tokens crlf headersStr) 0
        ⟨some (createHeaders initialCount), 0, initialCount⟩ with
    | .done arr => ⟨some arr.contents, some arr.headerIndex⟩
    -- `*header_count` was passed on to `add_header`, which may have increased it
    | .failed arr => ⟨none, some arr.headerCount⟩
  else ⟨none, none⟩

/-- `find_header_value`. -/
def findHeaderValue (headers : List Header) (key : List UInt8) : Option (List UInt8) :=
  (headers.find? fun h => h.key == key).map Header.value

/-- The headers of a text: those of its lines that have a colon. -/
def headersOfText (junk headersStr : List UInt8) : List Header :=
  (tokens crlf headersStr).filterMap (headerOfLine junk)

private theorem deserializeHeadersLoop_done {junk : List UInt8} {alloc : Nat → HeaderAlloc}
    {toks : List Token} {k : Nat} {arr arr' : HeaderArray}
    (h : deserializeHeadersLoop junk alloc toks k arr = .done arr') (hwf : arr.WellFormed) :
    arr'.headerIndex = arr.headerIndex + (toks.filterMap (headerOfLine junk)).length ∧
      arr'.contents = arr.contents ++ toks.filterMap (headerOfLine junk) := by
  induction toks generalizing k arr with
  | nil =>
    simp only [deserializeHeadersLoop, HeadersLoop.done.injEq] at h
    simp [h]
  | cons tok toks ih =>
    cases hl : headerOfLine junk tok with
    | none =>
      simp only [deserializeHeadersLoop, hl] at h
      simpa [hl] using ih h hwf
    | some hd =>
      simp only [deserializeHeadersLoop, hl] at h
      cases hadd : addHeader (alloc k) arr hd.key hd.value with
      | mk ret arr₁ =>
        simp only [hadd] at h
        split at h
        · rename_i hret
          obtain ⟨hwf₁, hidx₁, hcont₁⟩ := addHeader_of_ret_zero (hret ▸ hadd) hwf
          obtain ⟨hidx, hcont⟩ := ih h hwf₁
          simp only [List.filterMap_cons, hl, List.length_cons]
          exact ⟨by omega, by simp [hcont, hcont₁]⟩
        · simp at h

private theorem deserializeHeadersLoop_ok (junk : List UInt8) {alloc : Nat → HeaderAlloc}
    (ha : ∀ k, (alloc k).Succeeds) (toks : List Token) (k : Nat) (arr : HeaderArray) :
    ∃ arr', deserializeHeadersLoop junk alloc toks k arr = .done arr' := by
  induction toks generalizing k arr with
  | nil => exact ⟨arr, rfl⟩
  | cons tok toks ih =>
    simp only [deserializeHeadersLoop]
    split
    · exact ih k arr
    · rename_i hd _
      obtain ⟨arr₁, hadd⟩ := addHeader_ret (ha k) arr hd.key hd.value
      simpa [hadd] using ih (k + 1) arr₁

/-- The array returned holds the headers of the text, and the count is their number. -/
theorem deserializeHeaders_some {m : HeadersMemory} {s : List UInt8} {headers : List Header}
    (h : (deserializeHeaders m s).headers = some headers) :
    headers = headersOfText m.junk s ∧
      (deserializeHeaders m s).headerCount = some headers.length := by
  unfold deserializeHeaders at h ⊢
  simp only at h ⊢
  split
  · rename_i hmem
    rw [if_pos hmem] at h
    split at h
    · rename_i arr hloop
      obtain ⟨hidx, hcont⟩ := deserializeHeadersLoop_done hloop (createHeaders_wellFormed _)
      simp only [Option.some.injEq] at h
      rw [contents_createHeaders, List.nil_append] at hcont
      rw [Nat.zero_add] at hidx
      simp only [← h, hcont, hidx, headersOfText, and_self]
    · simp at h
  · rename_i hmem
    rw [if_neg hmem] at h
    simp at h

/-- With successful allocations the parser succeeds. -/
theorem deserializeHeaders_ok {m : HeadersMemory} (hm : m.Succeeds) (s : List UInt8) :
    (deserializeHeaders m s).headers = some (headersOfText m.junk s) := by
  obtain ⟨h1, h2, ha⟩ := hm
  obtain ⟨arr, hloop⟩ := deserializeHeadersLoop_ok m.junk ha (tokens crlf s) 0
    ⟨some (createHeaders (max 1 (countLineEndings false s))), 0,
      max 1 (countLineEndings false s)⟩
  have hsome : (deserializeHeaders m s).headers = some arr.contents := by
    simp [deserializeHeaders, h1, h2, hloop]
  rw [hsome, (deserializeHeaders_some hsome).1]

end SelectServer
