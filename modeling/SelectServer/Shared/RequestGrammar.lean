import SelectServer.Shared.Pipeline

/-!
# The request heads that are accepted

What `deserialize_http_request_header` should accept, in terms of the text: a first line of three
words that fit their arrays, and a blank line behind it. Three functions look at the text, each
on its own: `strtok` for the line, `sscanf` for the words, `strstr` for the blank line.

`sscanf` stores words of any length, ignores a fourth word, and nothing compares the places
that `strtok` and `strstr` found; and the exit for a text without blank line frees fields that
were never assigned. `handlesText_iff` says which texts are spared.
-/

namespace SelectServer

open CLib

/-! ## The first line -/

/-- The line endings that a text begins with. -/
def leadingLineEnds (text : List UInt8) : List UInt8 := text.takeWhile (· ∈ crlf)

/-- No blank line begins inside the first line. -/
theorem length_firstLine_le {text : List UInt8} {p : Nat}
    (hp : strstr doubleEndLine text = some p) (hle : (leadingLineEnds text).length ≤ p) :
    (leadingLineEnds text).length + (firstLine text).length ≤ p := by
  by_contra hlt
  have hparts : text = leadingLineEnds text ++ (firstLine text ++
      (text.dropWhile (· ∈ crlf)).dropWhile (fun c => !decide (c ∈ crlf))) := by
    rw [firstLine, List.takeWhile_append_dropWhile, leadingLineEnds,
      List.takeWhile_append_dropWhile]
  obtain ⟨t, ht⟩ := ((strstr_eq_some_iff doubleEndLine_ne_nil).mp hp).1
  -- the byte at `p` is the first one of the blank line, and a byte of the first line
  have hcr : text[p]? = some 13 := by
    rw [← List.head?_drop, ← ht]
    rfl
  have hin : (firstLine text)[p - (leadingLineEnds text).length]? = some 13 := by
    rw [hparts, List.getElem?_append_right hle, List.getElem?_append_left (by omega)] at hcr
    exact hcr
  exact notMem_firstLine (by simp [crlf]) (List.mem_of_getElem? hin)

/-! ## What is accepted -/

/-- A text with a blank line and, in front of the first one, a first line that consists of the
three words of `l`, each of which fits its array. -/
structure RequestHead (text : List UInt8) (l : RequestLine) : Prop where
  words : words (firstLine text) = [l.method, l.uri, l.version]
  method_lt : l.method.length < methodSize
  uri_lt : l.uri.length < uriSize
  version_lt : l.version.length < versionSize
  blankLine : ∃ p, strstr doubleEndLine text = some p ∧
    (leadingLineEnds text).length + (firstLine text).length ≤ p

/-- The words that `sscanf` stores fit their arrays, a request head gives its three words, and
any other text gives NULL. -/
structure HandlesText (mem : DeserializeMemory) (text : List UInt8) : Prop where
  fits : FitsArrays (scanWords 3 (firstLine text))
  accepts : ∀ l, RequestHead text l → ∃ message,
    deserializeHttpRequestHeader mem text = .returned message ∧ message.line = some l
  rejects : (∀ l, ¬ RequestHead text l) → deserializeHttpRequestHeader mem text = .null

/-! ## What the deserialiser does -/

section Deserialize

variable {mem : DeserializeMemory} (hmem : mem.Succeeds)
include hmem

/-- `strtok` and `sscanf` together look at the words of the first line. -/
theorem deserializeHttpRequestHeader_eq (text : List UInt8) :
    deserializeHttpRequestHeader mem text =
      match parseRequestLine (firstLine text) with
      | .overrun => .fault .arrayOverrun
      | .rejected => .null
      | .line l => deserializeHeaderBlock mem text l := by
  obtain ⟨hmessage, htemp, -, -⟩ := hmem
  rw [deserializeHttpRequestHeader, deserializeHttpHeader, hmessage, htemp]
  cases htok : strtok crlf text with
  | none =>
    rw [strtok_crlf_eq_none htok]
    rfl
  | some tok =>
    simp only [strtok_crlf_text htok, Bool.and_self, if_true]
    cases parseRequestLine (firstLine text) with
    | overrun => rfl
    | rejected => rfl
    | line l => rfl

theorem deserialize_of_words_lt {text : List UInt8} (hfits : FitsArrays (words (firstLine text)))
    (h : (words (firstLine text)).length < 3) :
    deserializeHttpRequestHeader mem text = .null := by
  rw [deserializeHttpRequestHeader_eq hmem, parseRequestLine_of_fits hfits]
  generalize words (firstLine text) = ws at h
  rcases ws with _ | ⟨method, _ | ⟨uri, _ | ⟨version, rest⟩⟩⟩
  · rfl
  · rfl
  · rfl
  · simp only [List.length_cons] at h
    omega

/-- A request line and a blank line, wherever they are, give a request. -/
theorem deserialize_of_blankLine {text : List UInt8} {l : RequestLine} {p : Nat}
    (hfits : FitsArrays (words (firstLine text)))
    (hl : (words (firstLine text)).take 3 = [l.method, l.uri, l.version])
    (hp : strstr doubleEndLine text = some p) :
    ∃ message, deserializeHttpRequestHeader mem text = .returned message ∧
      message.line = some l := by
  rw [deserializeHttpRequestHeader_eq hmem, parseRequestLine_eq_line_iff.mpr ⟨hfits, hl⟩]
  obtain ⟨-, -, hpart, hheaders⟩ := hmem
  have hok := deserializeHeaders_ok hheaders (text.take (p + doubleEndLine.length))
  simp only [deserializeHeaderBlock, hp, hpart, if_true, hok]
  exact ⟨_, rfl, rfl⟩

/-- Without a blank line the request is freed before its headers and its body are assigned. -/
theorem deserialize_of_no_blankLine {text : List UInt8} {l : RequestLine}
    (hfits : FitsArrays (words (firstLine text)))
    (hl : (words (firstLine text)).take 3 = [l.method, l.uri, l.version])
    (hp : strstr doubleEndLine text = none) :
    deserializeHttpRequestHeader mem text = .fault .unassignedField := by
  rw [deserializeHttpRequestHeader_eq hmem, parseRequestLine_eq_line_iff.mpr ⟨hfits, hl⟩]
  simp only [deserializeHeaderBlock, hp]
  rfl

/-- A text is handled as it should be exactly if the words of its first line fit their arrays,
and they are fewer than three, or three with the first blank line behind them. -/
theorem handlesText_iff (text : List UInt8) :
    HandlesText mem text ↔ FitsArrays (words (firstLine text)) ∧
      ((words (firstLine text)).length < 3 ∨
        (words (firstLine text)).length = 3 ∧ ∃ p, strstr doubleEndLine text = some p ∧
          (leadingLineEnds text).length ≤ p) := by
  -- `sscanf` stops at the third word
  have hzip : FitsArrays (scanWords 3 (firstLine text)) ↔
      FitsArrays (words (firstLine text)) := by
    rw [scanWords_eq, fitsArrays_take]
  constructor
  · intro h
    have hfits := hzip.mp h.fits
    refine ⟨hfits, ?_⟩
    by_cases hlt : (words (firstLine text)).length < 3
    · exact Or.inl hlt
    · right
      -- three words are read, whatever stands behind them
      obtain ⟨l, hl⟩ : ∃ l : RequestLine,
          (words (firstLine text)).take 3 = [l.method, l.uri, l.version] := by
        match words (firstLine text), hlt with
        | m :: u :: v :: rest, _ => exact ⟨⟨m, u, v⟩, rfl⟩
        | [], hlt | [_], hlt | [_, _], hlt => exact absurd (by simp) hlt
      by_cases hhead : ∃ l, RequestHead text l
      · obtain ⟨l', hl'⟩ := hhead
        obtain ⟨p, hp, hle⟩ := hl'.blankLine
        exact ⟨by rw [hl'.words]; rfl, p, hp, by omega⟩
      · -- the result would have to be NULL, which it is on no text with three words
        have hnull := h.rejects fun l' hl' => hhead ⟨l', hl'⟩
        cases hp : strstr doubleEndLine text with
        | none =>
          rw [deserialize_of_no_blankLine hmem hfits hl hp] at hnull
          cases hnull
        | some p =>
          obtain ⟨message, hret, -⟩ := deserialize_of_blankLine hmem hfits hl hp
          rw [hret] at hnull
          cases hnull
  · rintro ⟨hfits, hlt | ⟨hthree, p, hp, hle⟩⟩
    · refine ⟨hzip.mpr hfits, fun l hl => ?_, fun _ => deserialize_of_words_lt hmem hfits hlt⟩
      rw [hl.words] at hlt
      exact absurd hlt (lt_irrefl 3)
    · obtain ⟨m, u, v, hwords⟩ := List.length_eq_three.mp hthree
      -- three words that fit, and a blank line behind them
      have hhead : RequestHead text ⟨m, u, v⟩ := by
        rw [hwords] at hfits
        exact ⟨hwords, hfits (m, methodSize) (by simp), hfits (u, uriSize) (by simp),
          hfits (v, versionSize) (by simp), p, hp, length_firstLine_le hp hle⟩
      refine ⟨hzip.mpr hfits, fun l hl => ?_, fun hno => absurd hhead (hno _)⟩
      apply deserialize_of_blankLine hmem hfits _ hp
      rw [hl.words]
      rfl

end Deserialize

theorem handlesText_getRequest :
    HandlesText ReceiveMemory.ideal.message (bytes "\r\nGET /a HTTP/1.1\r\n\r\n") := by
  apply (handlesText_iff ReceiveMemory.ideal_succeeds.2.1 _).mpr
  exact ⟨by decide +kernel, Or.inr ⟨by decide +kernel, 17, by decide +kernel, by decide +kernel⟩⟩

/-- A fourth word is ignored, a blank line in front of the line counts, a line without blank line
ends in a fault, and a long method is stored behind its array. -/
theorem handlesText_fails :
    ¬ HandlesText ReceiveMemory.ideal.message (bytes "GET /a HTTP/1.1 b\r\n\r\n") ∧
      ¬ HandlesText ReceiveMemory.ideal.message (bytes "\r\n\r\nGET /a HTTP/1.1") ∧
      ¬ HandlesText ReceiveMemory.ideal.message (bytes "GET /a HTTP/1.1\r\n") ∧
      ¬ HandlesText ReceiveMemory.ideal.message
        (bytes "GETGETGETGETGETGET /a HTTP/1.1\r\n\r\n") := by
  refine ⟨fun h => ?_, fun h => ?_, fun h => ?_, fun h => ?_⟩
  · have hnull := h.rejects fun l hl => by
      have hfour : (words (firstLine (bytes "GET /a HTTP/1.1 b\r\n\r\n"))).length = 4 := by
        decide +kernel
      rw [hl.words] at hfour
      cases hfour
    revert hnull
    decide +kernel
  · have hnull := h.rejects fun l hl => by
      obtain ⟨p, hp, hle⟩ := hl.blankLine
      have hfirst : strstr doubleEndLine (bytes "\r\n\r\nGET /a HTTP/1.1") = some 0 := by
        decide +kernel
      have hlead : (leadingLineEnds (bytes "\r\n\r\nGET /a HTTP/1.1")).length = 4 := by
        decide +kernel
      rw [hfirst] at hp
      obtain rfl := Option.some.inj hp
      omega
    revert hnull
    decide +kernel
  · have hnull := h.rejects fun l hl => by
      obtain ⟨p, hp, -⟩ := hl.blankLine
      have hnone : strstr doubleEndLine (bytes "GET /a HTTP/1.1\r\n") = none := by
        decide +kernel
      rw [hnone] at hp
      cases hp
    revert hnull
    decide +kernel
  · have hfits := h.fits
    revert hfits
    decide +kernel

end SelectServer
