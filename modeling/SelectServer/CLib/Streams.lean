import Mathlib.Data.List.Basic
import Mathlib.Data.List.TakeDrop
import Mathlib.Tactic.Linarith

/-!
# Byte sources that deliver in pieces

A socket (or a file) hands over a byte stream in pieces that its reader does not choose.
A `ByteSource` is such a stream together with one way of cutting it: `read n` returns at
most `n` bytes of the next piece. Quantifying over all sources is quantifying over all
streams, all segmentations and all points at which the stream ends.

`fill` is the loop every buffered reader is an instance of: read until the buffer is
full, a stop condition holds of what was read, or the source ends. `fill_stopped` and
`fill_exhausts` determine its result for every segmentation; the only trace the
segmentation leaves is `segmentEnd`, the place where the piece with a given byte ends.
-/

namespace CLib

variable {α : Type*}

/-! ## Sources -/

/-- What a read at the end of the stream reports: end of file, or an error. -/
inductive Ending
  | closed
  | failed
  deriving DecidableEq, Repr

/-- A stream cut into the pieces in which it becomes available. -/
structure ByteSource (α : Type*) where
  segments : List (List α)
  ending : Ending
  deriving DecidableEq, Repr

/-- The result of one read: some elements, or the end of the stream. -/
inductive ReadResult (α : Type*)
  | data (bs : List α)
  | ended (e : Ending)
  deriving DecidableEq, Repr

namespace ByteSource

/-- Everything the source still delivers. -/
def bytes (s : ByteSource α) : List α := s.segments.flatten

/-- At most `n` elements of the first piece that is not empty. -/
def takeSegment (n : Nat) : List (List α) → Option (List α × List (List α))
  | [] => none
  | [] :: rest => takeSegment n rest
  | (c :: cs) :: rest => some ((c :: cs).take n, (c :: cs).drop n :: rest)

/-- `recv(fd, buf, n)` or `read(fd, buf, n)`. -/
def read (s : ByteSource α) (n : Nat) : ReadResult α × ByteSource α :=
  match takeSegment n s.segments with
  | some (bs, rest) => (.data bs, { s with segments := rest })
  | none => (.ended s.ending, s)

theorem takeSegment_eq_none_iff {n : Nat} {segs : List (List α)} :
    takeSegment n segs = none ↔ segs.flatten = [] := by
  induction segs with
  | nil => simp [takeSegment]
  | cons seg rest ih =>
    cases seg with
    | nil => simpa [takeSegment] using ih
    | cons c cs => simp [takeSegment]

/-- What is taken is the beginning of a piece that is not empty. -/
theorem takeSegment_eq_some {n : Nat} {segs rest : List (List α)} {bs : List α}
    (h : takeSegment n segs = some (bs, rest)) :
    ∃ c cs tail, segs.flatten = (c :: cs) ++ tail.flatten ∧ bs = (c :: cs).take n ∧
      rest = (c :: cs).drop n :: tail := by
  induction segs with
  | nil => simp [takeSegment] at h
  | cons seg segs ih =>
    cases seg with
    | nil => exact ih (by simpa [takeSegment] using h)
    | cons c cs =>
      simp only [takeSegment, Option.some.injEq, Prod.mk.injEq] at h
      exact ⟨c, cs, segs, List.flatten_cons, h.1.symm, h.2.symm⟩

theorem flatten_of_takeSegment {n : Nat} {segs rest : List (List α)} {bs : List α}
    (h : takeSegment n segs = some (bs, rest)) : segs.flatten = bs ++ rest.flatten := by
  obtain ⟨c, cs, tail, hflatten, rfl, rfl⟩ := takeSegment_eq_some h
  rw [hflatten, List.flatten_cons, ← List.append_assoc, List.take_append_drop]

theorem length_le_of_takeSegment {n : Nat} {segs rest : List (List α)} {bs : List α}
    (h : takeSegment n segs = some (bs, rest)) : bs.length ≤ n := by
  obtain ⟨c, cs, -, -, rfl, -⟩ := takeSegment_eq_some h
  exact List.length_take_le _ _

/-- A read delivers at most what was asked for. -/
theorem length_le_of_read {s s' : ByteSource α} {n : Nat} {bs : List α}
    (h : s.read n = (.data bs, s')) : bs.length ≤ n := by
  unfold read at h
  split at h
  · obtain ⟨rfl, -⟩ : _ = bs ∧ _ := by simpa using h
    exact length_le_of_takeSegment ‹_›
  · simp at h

theorem length_pos_of_takeSegment {n : Nat} {segs rest : List (List α)} {bs : List α}
    (h : takeSegment n segs = some (bs, rest)) (hn : 0 < n) : 0 < bs.length := by
  obtain ⟨c, cs, -, -, rfl, -⟩ := takeSegment_eq_some h
  rw [List.length_take, List.length_cons]
  exact lt_min hn (Nat.succ_pos _)

/-- A read that delivers something delivers at least one element. -/
theorem length_pos_of_read {s s' : ByteSource α} {n : Nat} {bs : List α}
    (h : s.read n = (.data bs, s')) (hn : 0 < n) : 0 < bs.length := by
  unfold read at h
  split at h
  · obtain ⟨rfl, -⟩ : _ = bs ∧ _ := by simpa using h
    exact length_pos_of_takeSegment ‹_› hn
  · simp at h

/-- A read past which the stream has ended leaves the source as it was. -/
theorem read_of_bytes_eq_nil {s : ByteSource α} (h : s.bytes = []) (n : Nat) :
    s.read n = (.ended s.ending, s) := by
  simp [read, takeSegment_eq_none_iff.mpr h]

end ByteSource

/-! ## Where a piece ends -/

/-- The position just behind the piece that holds the element at position `i`. -/
def segmentEnd : List (List α) → Nat → Nat
  | [], _ => 0
  | seg :: rest, i =>
    if i < seg.length then seg.length else seg.length + segmentEnd rest (i - seg.length)

theorem lt_segmentEnd {segs : List (List α)} {i : Nat} (h : i < segs.flatten.length) :
    i < segmentEnd segs i := by
  induction segs generalizing i with
  | nil => simp at h
  | cons seg rest ih =>
    simp only [segmentEnd]
    split
    · assumption
    · simp only [List.flatten_cons, List.length_append] at h
      have := ih (i := i - seg.length) (by omega)
      omega

theorem segmentEnd_le (segs : List (List α)) (i : Nat) :
    segmentEnd segs i ≤ segs.flatten.length := by
  induction segs generalizing i with
  | nil => simp [segmentEnd]
  | cons seg rest ih =>
    simp only [segmentEnd, List.flatten_cons, List.length_append]
    have := ih (i - seg.length)
    split <;> omega

@[simp] theorem segmentEnd_nil_cons (segs : List (List α)) (i : Nat) :
    segmentEnd ([] :: segs) i = segmentEnd segs i := by
  simp [segmentEnd]

private theorem takeSegment_data {n : Nat} (hn : 0 < n) {segs : List (List α)}
    (h : segs.flatten ≠ []) :
    ∃ bs rest, ByteSource.takeSegment n segs = some (bs, rest) ∧ 0 < bs.length ∧
      bs.length ≤ n ∧ (∀ i < bs.length, min n (segmentEnd segs i) = bs.length) ∧
      (∀ i, bs.length ≤ i → i < n →
        segmentEnd segs i = bs.length + segmentEnd rest (i - bs.length)) := by
  induction segs with
  | nil => simp at h
  | cons seg rest ih =>
    cases seg with
    | nil => simpa [ByteSource.takeSegment] using ih (by simpa using h)
    | cons c cs =>
      refine ⟨(c :: cs).take n, (c :: cs).drop n :: rest, rfl, ?_, List.length_take_le _ _, ?_, ?_⟩
      · simp only [List.length_take, List.length_cons]; omega
      · -- the read took the element: the piece ends where the read does, or behind it
        intro i hi
        simp only [List.length_take] at hi
        simp only [segmentEnd, List.length_take, if_pos (by omega : i < (c :: cs).length)]
      · -- an element the read had room for but did not take lies in a later piece
        intro i hi hin
        simp only [List.length_take] at hi
        have hlen : (c :: cs).length ≤ n := by omega
        have hge : ¬ i < (c :: cs).length := by omega
        rw [List.take_of_length_le hlen, List.drop_of_length_le hlen, segmentEnd_nil_cons]
        simp only [segmentEnd, if_neg hge]

/-- One read, described by the piece it comes from: it takes all of the piece or fills the
buffer, and the place where the piece with a later element ends moves accordingly. -/
theorem ByteSource.read_data {s : ByteSource α} {n : Nat} (hn : 0 < n) (h : s.bytes ≠ []) :
    ∃ bs s', s.read n = (.data bs, s') ∧ 0 < bs.length ∧ bs.length ≤ n ∧
      s.bytes = bs ++ s'.bytes ∧ s'.ending = s.ending ∧
      (∀ i < bs.length, min n (segmentEnd s.segments i) = bs.length) ∧
      (∀ i, bs.length ≤ i → i < n →
        segmentEnd s.segments i = bs.length + segmentEnd s'.segments (i - bs.length)) := by
  obtain ⟨bs, rest, htake, hpos, hle, hin, hout⟩ := takeSegment_data hn h
  exact ⟨bs, { s with segments := rest }, by simp [read, htake], hpos, hle,
    flatten_of_takeSegment htake, rfl, hin, hout⟩

/-! ## Reading until a condition holds -/

/-- Why a reading loop ended. -/
inductive FillStatus
  | stopped
  | full
  | ended (e : Ending)
  deriving DecidableEq, Repr

/-- The outcome of a reading loop. -/
structure Filled (α : Type*) where
  status : FillStatus
  buffer : List α
  source : ByteSource α
  deriving DecidableEq, Repr

/-- Read into a buffer of `limit` elements, starting behind `acc`, until it is full, `stop`
holds of what it contains after a read, or the source ends. -/
def fill (limit : Nat) (stop : List α → Bool) : Nat → List α → ByteSource α → Filled α
  | 0, acc, s => ⟨.full, acc, s⟩
  | fuel + 1, acc, s =>
    if acc.length < limit then
      match s.read (limit - acc.length) with
      | (.data bs, s') =>
        if stop (acc ++ bs) then ⟨.stopped, acc ++ bs, s'⟩ else fill limit stop fuel (acc ++ bs) s'
      | (.ended e, s') => ⟨.ended e, acc, s'⟩
    else ⟨.full, acc, s⟩

private theorem take_append_eq {acc bs rest : List α} :
    (acc ++ (bs ++ rest)).take (acc ++ bs).length = acc ++ bs := by
  rw [← List.append_assoc, List.take_left']
  rfl

/-- When the stop condition holds of exactly the prefixes of length at least `h`, the loop
ends with the read that brings element `h - 1`: it has taken the whole piece with that
element, or as much of it as the buffer holds. -/
theorem fill_stopped {limit h : Nat} (stop : List α → Bool) (fuel : Nat) (acc : List α)
    (s : ByteSource α) (hfuel : limit ≤ acc.length + fuel) (hacc : acc.length < h)
    (hlimit : h ≤ limit) (hlen : h ≤ (acc ++ s.bytes).length)
    (hstop : ∀ n ≤ (acc ++ s.bytes).length, stop ((acc ++ s.bytes).take n) = decide (h ≤ n)) :
    ∃ s', fill limit stop fuel acc s = ⟨.stopped, (acc ++ s.bytes).take
        (min limit (acc.length + segmentEnd s.segments (h - 1 - acc.length))), s'⟩ ∧
      s'.bytes = (acc ++ s.bytes).drop
        (min limit (acc.length + segmentEnd s.segments (h - 1 - acc.length))) ∧
      s'.ending = s.ending := by
  induction fuel generalizing acc s with
  | zero => omega
  | succ fuel ih =>
    have hne : s.bytes ≠ [] := by
      intro hnil
      simp only [hnil, List.append_nil] at hlen
      omega
    obtain ⟨bs, s', hread, hpos, hle, hby, hend, hin, hout⟩ :=
      s.read_data (n := limit - acc.length) (by omega) hne
    have hpre : stop (acc ++ bs) = decide (h ≤ (acc ++ bs).length) := by
      have := hstop (acc ++ bs).length (by simp [hby])
      rwa [hby, take_append_eq] at this
    simp only [fill, if_pos (by omega : acc.length < limit), hread]
    by_cases hb : h ≤ (acc ++ bs).length
    · -- this read brings the element: its piece, cut to the buffer, is what was read
      have hseg := hin (h - 1 - acc.length) (by simp at hb; omega)
      have htotal : min limit (acc.length + segmentEnd s.segments (h - 1 - acc.length)) =
          (acc ++ bs).length := by
        simp only [List.length_append]
        omega
      refine ⟨s', ?_, ?_, hend⟩
      · rw [if_pos (hpre.trans (decide_eq_true hb)), htotal, hby, take_append_eq]
      · rw [htotal, hby, ← List.append_assoc, List.drop_left]
    · -- the element is still to come, counted from behind what this read brought
      have hstep := ih (acc ++ bs) s' (by simp; omega) (by omega)
        (by simpa [hby] using hlen) (by simpa [hby] using hstop)
      have hseg := hout (h - 1 - acc.length) (by simp at hb; omega) (by simp at hb; omega)
      have hsub : h - 1 - (acc ++ bs).length = h - 1 - acc.length - bs.length := by
        simp only [List.length_append]
        omega
      simp only [hpre, hb, decide_false, Bool.false_eq_true, if_false]
      rw [hsub] at hstep
      rw [hseg, hby, ← List.append_assoc, ← Nat.add_assoc, ← List.length_append]
      obtain ⟨t, hfill, hbytes, hend'⟩ := hstep
      exact ⟨t, hfill, hbytes, hend'.trans hend⟩

/-- When the stop condition holds of no prefix within the limit, the loop fills the buffer or
reaches the end of the source. -/
theorem fill_exhausts (limit : Nat) (stop : List α → Bool) (fuel : Nat) (acc : List α)
    (s : ByteSource α) (hfuel : limit ≤ acc.length + fuel) (hacc : acc.length ≤ limit)
    (hstop : ∀ n ≤ limit, stop ((acc ++ s.bytes).take n) = false) :
    ∃ s', fill limit stop fuel acc s =
        ⟨if limit ≤ (acc ++ s.bytes).length then .full else .ended s.ending,
          (acc ++ s.bytes).take limit, s'⟩ ∧
      s'.bytes = (acc ++ s.bytes).drop limit ∧ s'.ending = s.ending := by
  induction fuel generalizing acc s with
  | zero =>
    have hlen : acc.length = limit := by omega
    subst hlen
    exact ⟨s, by simp [fill], by simp, rfl⟩
  | succ fuel ih =>
    by_cases hfull : acc.length < limit
    · by_cases hnil : s.bytes = []
      · -- the source has ended, with room left in the buffer
        refine ⟨s, ?_, ?_, rfl⟩
        · have hlt : ¬ limit ≤ acc.length := by omega
          simp [fill, hfull, ByteSource.read_of_bytes_eq_nil hnil, hnil, hlt,
            List.take_of_length_le hfull.le]
        · simp [hnil, List.drop_of_length_le hfull.le]
      · obtain ⟨bs, s', hread, hpos, hle, hby, hend, -, -⟩ :=
          s.read_data (n := limit - acc.length) (by omega) hnil
        have hno : stop (acc ++ bs) = false := by
          have := hstop (acc ++ bs).length (by simp; omega)
          rwa [hby, take_append_eq] at this
        obtain ⟨t, hfill, hbytes, hend'⟩ := ih (acc ++ bs) s' (by simp; omega)
          (by simp; omega) (by simpa [hby] using hstop)
        refine ⟨t, ?_, by simpa [hby] using hbytes, hend'.trans hend⟩
        simp only [fill, if_pos hfull, hread, hno, Bool.false_eq_true, if_false, hfill]
        simp [hby, hend]
    · have hlen : acc.length = limit := by omega
      subst hlen
      exact ⟨s, by simp [fill], by simp, rfl⟩

end CLib
