import Mathlib.Data.List.Forall2
import SelectServer.Shared.Headers

/-!
# The lines that headers come from

`deserialize_headers` takes as value what starts two bytes behind the first colon of a line.
Within the line that is its rest without a blank, but behind a colon that is the last byte of
its line the pointer has jumped over the NUL that `strtok` has put there: the value is all of
the text that has not been cut up yet, or what the heap contains behind the copy.

Every header comes from a line of its own exactly if no line has its first colon at the end,
except for one that is ended by the last byte of the text (`headers_fromLines_iff`).
-/

namespace SelectServer

open CLib

/-! ## What a header has of its line -/

/-- The offset at which a line ends. -/
def lineEnd (s : List UInt8) (tok : Token) : Nat :=
  match tok.tail with
  | some rest => s.length - (rest.length + 1)
  | none => s.length

/-- The offset two bytes behind the first colon of a line. -/
def valueStart (s : List UInt8) (tok : Token) : Nat :=
  lineEnd s tok - tok.text.length + (tok.text.takeWhile (· != 58)).length + 2

/-- A header has come from a line: the key is what stands in front of the first colon, the value
is a suffix, and the bytes it is read from are those of the line; its terminator is at the end of
the text at the latest. -/
structure Header.FromLine (s : List UInt8) (h : Header) (tok : Token) : Prop where
  colon : 58 ∈ tok.text
  key : h.key = tok.text.takeWhile (· != 58)
  value : h.value <:+ tok.text
  own : h.value = [] ∨ valueStart s tok + h.value.length ≤ lineEnd s tok
  inside : valueStart s tok + h.value.length ≤ s.length

/-- The headers come from distinct lines, in their order. -/
def FromLines (s : List UInt8) (headers : List Header) : Prop :=
  ∃ lines : List Token, lines.Sublist (tokens crlf s) ∧
    List.Forall₂ (Header.FromLine s) headers lines

/-- The first colon of a line is its last byte. -/
def ColonLast (tok : Token) : Prop := strchr 58 tok.text = some [58]

instance : DecidablePred ColonLast := fun _ => inferInstanceAs (Decidable (_ = _))

/-! ## A single line -/

section Line

variable {junk s : List UInt8} {tok : Token} {hd : Header}

/-- What is in front of the end of a line, and what is behind it. -/
theorem lineEnd_of_mem (hmem : tok ∈ tokens crlf s) :
    tok.text.length ≤ lineEnd s tok ∧
      (∀ rest, tok.tail = some rest → lineEnd s tok + rest.length + 1 = s.length) := by
  obtain ⟨pre, post, rfl, htail⟩ := mem_tokens_split hmem
  rw [lineEnd, htail]
  cases post with
  | nil => simp
  | cons d rest =>
    simp only [List.tail?_cons, List.length_append, List.length_cons]
    refine ⟨by omega, fun r hr => ?_⟩
    obtain rfl := Option.some.inj hr
    omega

/-- The header of a line is made of what is in front of its first colon and what is behind it. -/
theorem headerOfLine_eq_some (h : headerOfLine junk tok = some hd) :
    ∃ after, strchr 58 tok.text = some (58 :: after) ∧
      tok.text = tok.text.takeWhile (· != 58) ++ 58 :: after ∧
      hd = ⟨tok.text.takeWhile (· != 58), cstr ((after ++ 0 :: behindToken tok junk).drop 1)⟩ := by
  rw [headerOfLine] at h
  cases hcolon : strchr 58 tok.text with
  | none =>
    rw [hcolon] at h
    cases h
  | some t =>
    obtain ⟨after, rfl, htext⟩ := strchr_eq_some hcolon
    rw [hcolon] at h
    exact ⟨after, rfl, htext, (Option.some.inj h).symm⟩

theorem headerOfLine_isSome_iff : (headerOfLine junk tok).isSome ↔ 58 ∈ tok.text := by
  rw [← strchr_isSome_iff, headerOfLine]
  cases hcolon : strchr 58 tok.text with
  | none => exact Iff.rfl
  | some t =>
    obtain ⟨after, rfl, -⟩ := strchr_eq_some hcolon
    exact iff_of_true rfl rfl

/-- With something behind its colon, a line has all of its value. -/
theorem fromLine_of_value (hs : 0 ∉ s) (hmem : tok ∈ tokens crlf s)
    (h : headerOfLine junk tok = some hd) (hvalue : ¬ ColonLast tok) : hd.FromLine s tok := by
  obtain ⟨after, hcolon, htext, rfl⟩ := headerOfLine_eq_some h
  obtain ⟨hle, htail⟩ := lineEnd_of_mem hmem
  cases after with
  | nil => exact absurd hcolon hvalue
  | cons c rest =>
    have hin : ∀ x ∈ tok.text, x ∈ s := by
      obtain ⟨pre, post, rfl, -⟩ := mem_tokens_split hmem
      intro x hx
      exact List.mem_append_left _ (List.mem_append_right _ hx)
    have hnul : 0 ∉ rest := by
      intro hzero
      apply hs (hin 0 _)
      rw [htext]
      exact List.mem_append_right _ (List.mem_cons_of_mem _ (List.mem_cons_of_mem _ hzero))
    have hcut : cstr ((c :: rest ++ 0 :: behindToken tok junk).drop 1) = rest := by
      rw [List.cons_append, List.drop_succ_cons, List.drop_zero, cstr_append_nul,
        cstr_eq_self hnul]
    rw [hcut]
    have hend : lineEnd s tok ≤ s.length := by
      unfold lineEnd
      split
      · exact Nat.sub_le _ _
      · exact le_rfl
    have hlength := congrArg List.length htext
    rw [List.length_append, List.length_cons, List.length_cons] at hlength
    have hrange : valueStart s tok + rest.length = lineEnd s tok := by
      unfold valueStart
      omega
    refine ⟨?_, rfl, ?_, Or.inr hrange.le, hrange.trans_le hend⟩
    · exact strchr_isSome_iff.mp (Option.isSome_of_mem hcolon)
    · rw [htext]
      exact ⟨tok.text.takeWhile (· != 58) ++ [58, c], by simp⟩

/-- Behind the NUL of a line that a delimiter ends stands all of the text behind it. -/
theorem cstr_behindToken (hs : 0 ∉ s) (hmem : tok ∈ tokens crlf s) {rest : List UInt8}
    (hrest : tok.tail = some rest) : cstr (behindToken tok junk) = rest := by
  have hnul : 0 ∉ rest := by
    obtain ⟨pre, post, rfl, hpost⟩ := mem_tokens_split hmem
    rw [hrest] at hpost
    cases post with
    | nil => cases hpost
    | cons d rest' =>
      obtain rfl := Option.some.inj hpost
      exact fun hzero => hs (List.mem_append_right _ (List.mem_cons_of_mem _ hzero))
  rw [behindToken, hrest]
  simp only
  rw [cstr_append_nul, cstr_eq_self hnul]

/-- Behind a colon at the end of a line, only a line ended by the last byte of the text has a
value of its own, the empty one. -/
theorem fromLine_iff_of_colonLast (hs : 0 ∉ s) (hmem : tok ∈ tokens crlf s)
    (h : headerOfLine junk tok = some hd) (hlast : ColonLast tok) :
    hd.FromLine s tok ↔ tok.tail = some [] := by
  obtain ⟨after, hcolon, htext, rfl⟩ := headerOfLine_eq_some h
  obtain ⟨hle, htail⟩ := lineEnd_of_mem hmem
  obtain rfl : after = [] := (List.cons.inj (Option.some.inj (hcolon.symm.trans hlast))).2
  have hlength := congrArg List.length htext
  rw [List.length_append, List.length_singleton] at hlength
  have hstart : valueStart s tok = lineEnd s tok + 1 := by
    unfold valueStart
    omega
  rw [List.nil_append, List.drop_succ_cons, List.drop_zero]
  cases hrest : tok.tail with
  | none =>
    -- the pointer is behind the terminator of the copy
    have hend : lineEnd s tok = s.length := by rw [lineEnd, hrest]
    refine iff_of_false (fun hline => ?_) (by simp)
    have hinside := hline.inside
    omega
  | some rest =>
    -- the value is the rest of the text, which is its own only if it is empty
    have hend := htail rest hrest
    rw [cstr_behindToken hs hmem hrest, Option.some.injEq]
    constructor
    · intro hline
      rcases hline.own with hnil | hown
      · exact hnil
      · simp only at hown
        omega
    · rintro rfl
      refine ⟨strchr_isSome_iff.mp (Option.isSome_of_mem hcolon), rfl, List.nil_suffix, Or.inl rfl,
        ?_⟩
      rw [hstart]
      simpa using hend.le

end Line

/-! ## All lines -/

/-- What is left of a list under a partial function is related to what it comes from. -/
theorem forall₂_filterMap_iff {α β : Type*} {f : α → Option β} {R : β → α → Prop} {l : List α} :
    List.Forall₂ R (l.filterMap f) (l.filter fun x => (f x).isSome) ↔
      ∀ x ∈ l, ∀ y, f x = some y → R y x := by
  induction l with
  | nil => simp
  | cons x xs ih =>
    cases hx : f x with
    | none => simp [hx, ih]
    | some y => simp [hx, ih]

section Text

variable {m : HeadersMemory} {s : List UInt8} {headers : List Header}

/-- There is only one way to assign the headers to lines. -/
theorem fromLines_headersOfText_iff {junk : List UInt8} :
    FromLines s (headersOfText junk s) ↔
      ∀ tok ∈ tokens crlf s, ∀ h, headerOfLine junk tok = some h → h.FromLine s tok := by
  rw [← forall₂_filterMap_iff, ← headersOfText]
  constructor
  · -- both are the lines with a colon, in order: one is a sublist of the other, and as long
    rintro ⟨lines, hsub, hall⟩
    have hcolon : ∀ tok ∈ lines, (headerOfLine junk tok).isSome = true := by
      have hlines : List.Forall₂ (fun tok h => 58 ∈ tok.text ∧ Header.FromLine s h tok) lines
          (headersOfText junk s) := List.Forall₂.flip (hall.imp fun _ _ h => ⟨h.colon, h⟩)
      intro tok hmem
      exact headerOfLine_isSome_iff.mpr (((List.forall₂_and_left _ _).mp hlines).1 tok hmem)
    have hfilter := hsub.filter fun tok => (headerOfLine junk tok).isSome
    rw [List.filter_eq_self.mpr hcolon] at hfilter
    have hlength : lines.length =
        ((tokens crlf s).filter fun tok => (headerOfLine junk tok).isSome).length := by
      rw [← hall.length_eq, headersOfText, List.length_filterMap_eq_countP,
        List.countP_eq_length_filter]
    rwa [hfilter.eq_of_length hlength] at hall
  · exact fun hall => ⟨_, List.filter_sublist, hall⟩

/-- The headers that are returned come from lines of their own exactly if no line has its first
colon at its end, except for a line that is ended by the last byte of the text. -/
theorem headers_fromLines_iff (hs : 0 ∉ s) (h : (deserializeHeaders m s).headers = some headers) :
    FromLines s headers ↔ ∀ tok ∈ tokens crlf s, ColonLast tok → tok.tail = some [] := by
  obtain ⟨rfl, -⟩ := deserializeHeaders_some h
  rw [fromLines_headersOfText_iff]
  constructor
  · intro hall tok hmem hlast
    have hcolon : 58 ∈ tok.text := strchr_isSome_iff.mp (Option.isSome_of_mem hlast)
    have hheader : (headerOfLine m.junk tok).isSome := headerOfLine_isSome_iff.mpr hcolon
    obtain ⟨hd, hline⟩ := Option.isSome_iff_exists.mp hheader
    exact (fromLine_iff_of_colonLast hs hmem hline hlast).mp (hall tok hmem hd hline)
  · intro hall tok hmem hd hline
    by_cases hlast : ColonLast tok
    · exact (fromLine_iff_of_colonLast hs hmem hline hlast).mpr (hall tok hmem hlast)
    · exact fromLine_of_value hs hmem hline hlast

end Text

/-- Memory without failing allocations, with `heap` behind the copy of the text. -/
def HeadersMemory.over (heap : List UInt8) : HeadersMemory :=
  ⟨true, true, fun k => ⟨true, some (2 * k), some (2 * k + 1)⟩, heap⟩

theorem headers_fromLines_host :
    FromLines (bytes "Host: a\r\n") [⟨bytes "Host", bytes "a"⟩] :=
  (headers_fromLines_iff (m := .over []) (by decide) (by decide)).mpr (by decide)

/-- A header without a value is given the lines behind it, and at the end of the text what the
heap contains. -/
theorem headers_of_other_lines :
    ((deserializeHeaders (.over []) (bytes "X:\r\nY: a")).headers =
        some [⟨bytes "X", bytes "\nY: a"⟩, ⟨bytes "Y", bytes "a"⟩] ∧
      ¬ FromLines (bytes "X:\r\nY: a")
        [⟨bytes "X", bytes "\nY: a"⟩, ⟨bytes "Y", bytes "a"⟩]) ∧
    (deserializeHeaders (.over (bytes "heap")) (bytes "X:")).headers =
        some [⟨bytes "X", bytes "heap"⟩] ∧
      ¬ FromLines (bytes "X:") [⟨bytes "X", bytes "heap"⟩] := by
  refine ⟨⟨by decide, fun hlines => ?_⟩, by decide, fun hlines => ?_⟩
  · have hheaders : headersOfText [] (bytes "X:\r\nY: a") =
        [⟨bytes "X", bytes "\nY: a"⟩, ⟨bytes "Y", bytes "a"⟩] := by decide
    rw [← hheaders, fromLines_headersOfText_iff] at hlines
    have hmem : Token.mk (bytes "X:") (some (bytes "\nY: a")) ∈
        tokens crlf (bytes "X:\r\nY: a") := by decide
    have htail := (fromLine_iff_of_colonLast (by decide) hmem rfl rfl).mp (hlines _ hmem _ rfl)
    exact absurd htail (by decide)
  · have hheaders : headersOfText (bytes "heap") (bytes "X:") =
        [⟨bytes "X", bytes "heap"⟩] := by decide
    rw [← hheaders, fromLines_headersOfText_iff] at hlines
    have hmem : Token.mk (bytes "X:") none ∈ tokens crlf (bytes "X:") := by decide
    have htail := (fromLine_iff_of_colonLast (by decide) hmem rfl rfl).mp (hlines _ hmem _ rfl)
    exact absurd htail (by decide)

end SelectServer
