import Mathlib.Data.List.DropRight
import SelectServer.Shared.HeaderLines
import SelectServer.Shared.ReceiveSpec

/-!
# The `Content-Length` field

Both receive functions convert the field with `atoi`, which reports no failure: a digit string
from `2 ^ 31` on wraps around, a sign is taken, and the length for the allocation is one more
than the result. What is converted is the text from two bytes behind the colon on, so that a
digit that stands there without a blank is lost. `lengthTaken_iff` says for which header texts
nothing of this shows.
-/

namespace SelectServer

open CLib

/-! ## Field values -/

/-- A string of decimal digits. -/
def IsDecimal (v : List UInt8) : Prop := v ≠ [] ∧ ∀ c ∈ v, isdigit c = true

instance (v : List UInt8) : Decidable (IsDecimal v) :=
  inferInstanceAs (Decidable (v ≠ [] ∧ ∀ c ∈ v, isdigit c = true))

/-- The optional white space of the field syntax: blank and horizontal tab. -/
def isBlank (c : UInt8) : Bool := c == 32 || c == 9

/-- A string without the blanks on both sides. -/
def trimBlanks (s : List UInt8) : List UInt8 := (s.dropWhile isBlank).rdropWhile isBlank

/-- What stands in front of the first colon of a line is `Content-Length`. -/
def NamesLength (line : List UInt8) : Prop :=
  58 ∈ line ∧ line.takeWhile (· != 58) = bytes "Content-Length"

instance : DecidablePred NamesLength := fun _ => inferInstanceAs (Decidable (_ ∧ _))

/-- What stands behind the first colon of a line. -/
def fieldRest (line : List UInt8) : List UInt8 := (line.dropWhile (· != 58)).drop 1

/-- The lines of the head of a text: the request or status line, and the fields. -/
def headLines (text : List UInt8) : List Token :=
  match strstr doubleEndLine text with
  | none => []
  | some p => tokens crlf (text.take (p + 4))

/-- The `Content-Length` field of a text: what stands behind the colon of the first line with
this name, not counting the request or status line. -/
def contentLengthField (text : List UInt8) : Option (List UInt8) :=
  ((headLines text).tail.find? fun tok => NamesLength tok.text).map fun tok => fieldRest tok.text

/-- A text has a field whose value is a digit string. -/
def HasDecimalField (text : List UInt8) : Prop :=
  ∃ rest ∈ contentLengthField text, IsDecimal (trimBlanks rest)

instance (text : List UInt8) : Decidable (HasDecimalField text) :=
  inferInstanceAs (Decidable (∃ rest ∈ contentLengthField text, IsDecimal (trimBlanks rest)))

theorem isspace_of_isBlank {c : UInt8} (h : isBlank c = true) : isspace c = true := by
  simp only [isBlank, Bool.or_eq_true, beq_iff_eq] at h
  rcases h with rfl | rfl <;> decide

/-- What `atoi` makes of the text from two bytes behind the colon on: the number, or with no
blank behind the colon the number without its first digit. -/
theorem atoi_behindColon {before v after : List UInt8} (hbefore : ∀ c ∈ before, isBlank c = true)
    (hdec : IsDecimal v) (hafter : ∀ c ∈ after, isBlank c = true) :
    ∃ k : Nat, atoi ((before ++ (v ++ after)).drop 1) = toInt32 (clampLong k) ∧
      k ≤ digitsValue v ∧ (k = digitsValue v ↔ before ≠ [] ∨ v.head? = some 48) := by
  have hafter : ∀ c ∈ after, isspace c = true := fun c hc => isspace_of_isBlank (hafter c hc)
  cases before with
  | cons b bs =>
    -- one byte of the white space is passed over, and `atoi` skips the rest
    refine ⟨digitsValue v, ?_, le_rfl, by simp⟩
    have hbs : ∀ c ∈ bs, isspace c = true := by
      intro c hc
      exact isspace_of_isBlank (hbefore c (by simp [hc]))
    rw [List.cons_append, List.drop_succ_cons, List.drop_zero]
    exact atoi_blanks hbs hdec.2 hafter
  | nil =>
    obtain ⟨d, ds, rfl⟩ := List.exists_cons_of_ne_nil hdec.1
    have hdigit : isdigit d = true := hdec.2 d (by simp)
    refine ⟨digitsValue ds, ?_, ?_, ?_⟩
    · -- what is passed over is the first digit
      have hds : ∀ c ∈ ds, isdigit c = true := fun c hc => hdec.2 c (by simp [hc])
      have hnone : ∀ c ∈ ([] : List UInt8), isspace c = true := by simp
      have hread := atoi_blanks hnone hds hafter
      rw [List.nil_append, List.cons_append, List.drop_succ_cons, List.drop_zero]
      rwa [List.nil_append] at hread
    · rw [digitsValue_cons]
      exact Nat.le_add_left _ _
    · rw [digitsValue_tail_eq_iff hdigit]
      simp

/-- A string is its trimmed value with blanks on both sides. -/
theorem trimBlanks_split (s : List UInt8) :
    ∃ before after, s = before ++ (trimBlanks s ++ after) ∧
      (∀ c ∈ before, isBlank c = true) ∧ (∀ c ∈ after, isBlank c = true) ∧
      (IsDecimal (trimBlanks s) → (before ≠ [] ↔ s.head?.any isBlank = true)) := by
  refine ⟨s.takeWhile isBlank, (s.dropWhile isBlank).rtakeWhile isBlank, ?_,
    fun c hc => List.mem_takeWhile_imp hc, fun c hc => List.mem_rtakeWhile_imp hc, fun hdec => ?_⟩
  · rw [trimBlanks, List.rdropWhile_append_rtakeWhile, List.takeWhile_append_dropWhile]
  · cases s with
    | nil => simp
    | cons c cs =>
      rw [List.takeWhile_cons, List.head?_cons, Option.any_some]
      split
      · simp [*]
      · simp [*]

/-- The `Content-Length` of the message that a header text is parsed to: what is converted. -/
def lengthHeader {L : Type} (parseLine : List UInt8 → ParsedLine L) (mem : DeserializeMemory)
    (text : List UInt8) : Option (List UInt8) :=
  match deserializeHttpHeader parseLine mem text with
  | .returned ⟨_, some (some headers), _, _, _⟩ =>
    findHeaderValue headers (bytes "Content-Length")
  | _ => none

/-- A body of `n` bytes has a block, and the stream has a body for it: all of it, or a part
that the peer closes the connection behind. -/
def BodyArrives (mem : ReceiveMemory) (socket : ByteSource UInt8) (n : Nat) : Prop :=
  BodyAllocated mem n ∧ ∃ h, headerEnd socket.bytes = some h ∧
    (h + n ≤ socket.bytes.length ∨
      socket.ending = .closed ∧ arrived socket h < socket.bytes.length)

/-! ## What the receive functions make of it -/

/-- The words of the first line stay inside their arrays; a message that is returned has the
length its field denotes, or one that is not negative if there is no such number; and the size
of the block for an announced body is an `int`. -/
structure LengthTaken {L : Type} (parseLine : List UInt8 → ParsedLine L) (mem : ReceiveMemory)
    (socket : ByteSource UInt8) (r : Receive L) : Prop where
  inArrays : r.outcome ≠ .fault .arrayOverrun
  digits : ∀ text rest m, headerText socket = some text → contentLengthField text = some rest →
    IsDecimal (trimBlanks rest) → r.outcome = .returned m →
      m.bodyLength = some (digitsValue (trimBlanks rest) : Int)
  others : ∀ text m, headerText socket = some text → ¬ HasDecimalField text →
    r.outcome = .returned m → ∃ n, m.bodyLength = some n ∧ 0 ≤ n
  allocation : mem.buffer = true → ∀ text n, headerText socket = some text →
    declaredBody parseLine mem.message text = some n → n + 1 < 2 ^ 31

/-- The number of a field is the one that is read: it fits, and no digit that counts stands in
the byte behind the colon. A request or status line with the name is read in place of the
field; `taken` is what is converted. -/
structure LengthRead (text rest taken : List UInt8) : Prop where
  fits : digitsValue (trimBlanks rest) + 1 < 2 ^ 31
  field : (∀ line ∈ (headLines text).head?, ¬ NamesLength line.text) →
    rest.head?.any isBlank = true ∨ (trimBlanks rest).head? = some 48
  firstLine : (∃ line ∈ (headLines text).head?, NamesLength line.text) →
    atoi taken = digitsValue (trimBlanks rest)

/-- What is converted does no harm: it is the number of the field; without such a number it is
one that is not negative, and its successor an `int`; or it is the length of a body that does
not arrive. -/
def LengthSpared (mem : ReceiveMemory) (socket : ByteSource UInt8) (text taken : List UInt8) :
    Prop :=
  (∃ rest ∈ contentLengthField text, IsDecimal (trimBlanks rest) ∧ LengthRead text rest taken) ∨
    (¬ HasDecimalField text ∧ 0 ≤ atoi taken ∧ atoi taken + 1 < 2 ^ 31) ∨
    (0 < atoi taken ∧ atoi taken + 1 < 2 ^ 31 ∧ ¬ BodyArrives mem socket (atoi taken).toNat)

section Receive

variable {L : Type} {parseLine : List UInt8 → ParsedLine L} {mem : ReceiveMemory}
  {socket : ByteSource UInt8}

theorem lengthHeader_of_not_accepts {mem : DeserializeMemory} {text : List UInt8}
    (h : ¬ AcceptsHead parseLine mem text) : lengthHeader parseLine mem text = none := by
  unfold lengthHeader
  split
  · exact absurd ‹_› (deserialize_ne_returned h _)
  · rfl

/-- Of an accepted head, a message is returned unless it announces a body that does not arrive;
its length is what `atoi` makes of the field. -/
theorem receive_length (hbuf : mem.buffer = true) {h : Nat}
    (hh : headerEnd socket.bytes = some h) (hle : h ≤ defaultBufferSize)
    (hacc : AcceptsHead parseLine mem.message (headText socket h)) :
    ∃ headers,
      headers = headersOfText mem.message.headers.junk ((headText socket h).take h) ∧
      lengthHeader parseLine mem.message (headText socket h) =
        findHeaderValue headers (bytes "Content-Length") ∧
      declaredBody parseLine mem.message (headText socket h) =
        (if 0 < contentLength headers then some (contentLength headers).toNat else none) ∧
      (∀ m, (receiveHttpMessage (deserializeHttpHeader parseLine) mem socket).outcome =
          .returned m →
        m.headers = some (some headers) ∧ m.bodyLength = some (contentLength headers)) ∧
      ((∃ m, (receiveHttpMessage (deserializeHttpHeader parseLine) mem socket).outcome =
          .returned m) ↔
        contentLength headers ≤ 0 ∨ BodyArrives mem socket (contentLength headers).toNat) := by
  obtain ⟨tok, l, p, htok, hl, hp, hd⟩ := deserialize_of_accepts hacc
  -- the headers are those of the lines up to the blank line
  generalize hheaders : headersOfText mem.message.headers.junk
    ((headText socket h).take (p + 4)) = headers at hd
  have hfield : lengthHeader parseLine mem.message (headText socket h) =
      findHeaderValue headers (bytes "Content-Length") := by rw [lengthHeader, hd]
  have hdecl : declaredBody parseLine mem.message (headText socket h) =
      (if 0 < contentLength headers then some (contentLength headers).toNat else none) := by
    rw [declaredBody, hd]
  rw [blankLine_headText hh hp] at hheaders
  refine ⟨headers, hheaders.symm, hfield, hdecl, ?_⟩
  by_cases hpos : 0 < contentLength headers
  · rw [if_pos hpos] at hdecl
    generalize hn : (contentLength headers).toNat = n at hdecl
    -- an announced body: the message is returned if it arrives
    by_cases halloc : BodyAllocated mem n
    · obtain ⟨_, l', headers', s', block, -, -, hheaders', hlen, -, hr, -⟩ :=
        receive_body hbuf hh hle hacc hdecl halloc
      obtain rfl : headers' = headers := hheaders'.trans hheaders
      -- the header ends in one place only
      have harrives : BodyArrives mem socket n ↔ h + n ≤ socket.bytes.length ∨
          socket.ending = .closed ∧ arrived socket h < socket.bytes.length := by
        constructor
        · rintro ⟨-, h', hh', hbody⟩
          obtain rfl := Option.some.inj (hh.symm.trans hh')
          exact hbody
        · intro hbody
          exact ⟨halloc, h, hh, hbody⟩
      rw [hr, harrives, hlen]
      constructor
      · intro m hm
        split at hm
        · obtain rfl := Outcome.returned.inj hm
          exact ⟨rfl, rfl⟩
        · cases hm
      · constructor
        · rintro ⟨m, hm⟩
          split at hm
          · exact Or.inr ‹_›
          · cases hm
        · rintro (hneg | hbody)
          · omega
          · exact ⟨_, if_pos hbody⟩
    · -- without a block the message is given up
      have hnull := (receive_noBlock hbuf hh hle hacc hdecl halloc).1
      rw [hnull]
      constructor
      · intro m hm
        cases hm
      · constructor
        · rintro ⟨m, hm⟩
          cases hm
        · rintro (hneg | harr)
          · omega
          · exact absurd harr.1 halloc
  · -- no body: the message is returned with the length as it is
    rw [if_neg hpos] at hdecl
    obtain ⟨_, l', headers', s', -, -, hheaders', hr, -⟩ :=
      receive_noBody hbuf hh hle hacc hdecl
    obtain rfl : headers' = headers := hheaders'.trans hheaders
    rw [hr]
    constructor
    · intro m hm
      obtain rfl := Outcome.returned.inj hm
      exact ⟨rfl, rfl⟩
    · constructor
      · intro _
        exact Or.inl (not_lt.mp hpos)
      · intro _
        exact ⟨_, rfl⟩

/-! ## The field and what is taken for it -/

/-- Of a list of lines, `find_header_value` takes the first one with the name. -/
theorem findHeaderValue_lines (junk : List UInt8) (lines : List Token) :
    findHeaderValue (lines.filterMap (headerOfLine junk)) (bytes "Content-Length") =
      (lines.find? fun tok => NamesLength tok.text).map fun tok =>
        cstr ((fieldRest tok.text ++ 0 :: behindToken tok junk).drop 1) := by
  induction lines with
  | nil => rfl
  | cons tok lines ih =>
    cases hline : headerOfLine junk tok with
    | none =>
      have hnot : ¬ NamesLength tok.text := by
        intro hnames
        have hsome : (headerOfLine junk tok).isSome := headerOfLine_isSome_iff.mpr hnames.1
        rw [hline] at hsome
        cases hsome
      rw [List.filterMap_cons_none hline, ih, List.find?_cons_of_neg (by simpa using hnot)]
    | some hd =>
      obtain ⟨after, -, htext, rfl⟩ := headerOfLine_eq_some hline
      have hcolon : 58 ∈ tok.text := headerOfLine_isSome_iff.mp (by rw [hline]; rfl)
      rw [List.filterMap_cons_some hline]
      by_cases hnames : NamesLength tok.text
      · have hkey : ∀ c ∈ tok.text.takeWhile (· != 58), (c != 58) = true :=
          fun c hc => List.mem_takeWhile_imp (p := (· != 58)) hc
        have hrest : fieldRest tok.text = after := by
          rw [fieldRest, htext, List.dropWhile_append_of_pos hkey, List.dropWhile_cons_of_neg,
            List.drop_succ_cons, List.drop_zero]
          decide
        rw [List.find?_cons_of_pos (by simpa using hnames), Option.map_some, hrest,
          findHeaderValue, List.find?_cons_of_pos (by simpa using hnames.2), Option.map_some]
      · have hkey : tok.text.takeWhile (· != 58) ≠ bytes "Content-Length" :=
          fun hkey => hnames ⟨hcolon, hkey⟩
        rw [List.find?_cons_of_neg (by simpa using hnames), ← ih, findHeaderValue,
          List.find?_cons_of_neg (by simpa using hkey), findHeaderValue]

/-- The text that is taken for a field that is read from a line of its own. -/
theorem atoi_taken_iff {s : List UInt8} (hs : 0 ∉ s) {tok : Token} (hmem : tok ∈ tokens crlf s)
    (hdec : IsDecimal (trimBlanks (fieldRest tok.text))) (junk : List UInt8) :
    atoi (cstr ((fieldRest tok.text ++ 0 :: behindToken tok junk).drop 1)) =
        digitsValue (trimBlanks (fieldRest tok.text)) ↔
      digitsValue (trimBlanks (fieldRest tok.text)) < 2 ^ 31 ∧
        ((fieldRest tok.text).head?.any isBlank = true ∨
          (trimBlanks (fieldRest tok.text)).head? = some 48) := by
  have hnul : 0 ∉ fieldRest tok.text := by
    obtain ⟨pre, post, rfl, -⟩ := mem_tokens_split hmem
    intro hzero
    apply hs
    exact List.mem_append_left _ (List.mem_append_right _
      ((List.dropWhile_sublist _).mem (List.mem_of_mem_drop hzero)))
  generalize fieldRest tok.text = rest at hdec hnul ⊢
  obtain ⟨before, after, hsplit, hbefore, hafter, hblank⟩ := trimBlanks_split rest
  obtain ⟨k, hk, hle, hiff⟩ := atoi_behindColon hbefore hdec hafter
  rw [← hsplit] at hk
  have hne : rest ≠ [] := by
    rintro rfl
    exact hdec.1 rfl
  obtain ⟨c, cs, rfl⟩ := List.exists_cons_of_ne_nil hne
  have hcut : cstr ((c :: cs ++ 0 :: behindToken tok junk).drop 1) = (c :: cs).drop 1 := by
    rw [List.cons_append, List.drop_succ_cons, List.drop_zero, cstr_append_nul,
      cstr_eq_self fun hzero => hnul (List.mem_cons_of_mem _ hzero), List.drop_succ_cons,
      List.drop_zero]
  rw [hcut, hk, toInt32_clampLong_eq_iff hle, hiff, hblank hdec]
  exact and_comm

/-- What is taken for the length of an accepted head, if it has a field: a request or status
line with the name comes first, and otherwise the field is found. -/
theorem lengthHeader_of_field {text rest : List UInt8} (hnul : 0 ∉ text) {mem : DeserializeMemory}
    (hacc : AcceptsHead parseLine mem text) (hfield : contentLengthField text = some rest) :
    ∃ taken, lengthHeader parseLine mem text = some taken ∧
      (IsDecimal (trimBlanks rest) → (atoi taken = digitsValue (trimBlanks rest) ∧
        digitsValue (trimBlanks rest) + 1 < 2 ^ 31 ↔ LengthRead text rest taken)) := by
  obtain ⟨tok, l, p, htok, hl, hp, hd⟩ := deserialize_of_accepts hacc
  have hlines : headLines text = tokens crlf (text.take (p + 4)) := by rw [headLines, hp]
  -- what is converted comes from the first line that has the name
  have htaken : lengthHeader parseLine mem text =
      ((headLines text).find? fun tok => NamesLength tok.text).map fun tok =>
        cstr ((fieldRest tok.text ++ 0 :: behindToken tok mem.headers.junk).drop 1) := by
    rw [lengthHeader, hd, hlines, ← findHeaderValue_lines]
    rfl
  have hnul' : 0 ∉ text.take (p + 4) := fun hzero => hnul (List.mem_of_mem_take hzero)
  have hmem : ∀ tok ∈ headLines text, tok ∈ tokens crlf (text.take (p + 4)) := by
    rw [hlines]
    exact fun _ h => h
  rw [contentLengthField] at hfield
  obtain ⟨found, hfound, rfl⟩ := Option.map_eq_some_iff.mp hfield
  cases hcons : headLines text with
  | nil =>
    rw [hcons] at hfound
    cases hfound
  | cons first lines =>
    rw [hcons, List.tail_cons] at hfound
    have hin : found ∈ tokens crlf (text.take (p + 4)) := by
      apply hmem
      rw [hcons]
      exact List.mem_cons_of_mem _ (List.mem_of_find?_eq_some hfound)
    by_cases hnames : NamesLength first.text
    · rw [hcons, List.find?_cons_of_pos (by simpa using hnames)] at htaken
      -- the request or status line has it, and stands in front of the field
      refine ⟨_, htaken, fun _ => ⟨fun h => ⟨h.2, fun hno => ?_, fun _ => h.1⟩, fun h => ?_⟩⟩
      · rw [hcons] at hno
        exact absurd hnames (hno first rfl)
      · exact ⟨h.firstLine ⟨first, by rw [hcons]; rfl, hnames⟩, h.fits⟩
    · rw [hcons, List.find?_cons_of_neg (by simpa using hnames), hfound] at htaken
      refine ⟨_, htaken, fun hdec => ?_⟩
      -- otherwise it is the field itself, from two bytes behind its colon on
      have hiff := atoi_taken_iff hnul' hin hdec mem.headers.junk
      have hno : ∀ line ∈ (headLines text).head?, ¬ NamesLength line.text := by
        rw [hcons]
        intro line hline
        obtain rfl := Option.some.inj hline
        exact hnames
      constructor
      · rintro ⟨hread, hfits⟩
        refine ⟨hfits, fun _ => (hiff.mp hread).2, ?_⟩
        rintro ⟨line, hline, hline'⟩
        exact absurd hline' (hno line hline)
      · intro h
        exact ⟨hiff.mpr ⟨by have := h.fits; omega, h.field hno⟩, h.fits⟩

/-- What is returned is right exactly for the texts that do no harm. -/
theorem lengthSpared_iff {text taken : List UInt8}
    (hread : ∀ rest, contentLengthField text = some rest → IsDecimal (trimBlanks rest) →
      (atoi taken = digitsValue (trimBlanks rest) ∧ digitsValue (trimBlanks rest) + 1 < 2 ^ 31 ↔
        LengthRead text rest taken)) :
    LengthSpared mem socket text taken ↔
      (atoi taken ≤ 0 ∨ BodyArrives mem socket (atoi taken).toNat →
        (∀ rest, contentLengthField text = some rest → IsDecimal (trimBlanks rest) →
          atoi taken = digitsValue (trimBlanks rest)) ∧
        (¬ HasDecimalField text → 0 ≤ atoi taken)) ∧
      (0 < atoi taken → atoi taken + 1 < 2 ^ 31) := by
  constructor
  · rintro (⟨rest, hfield, hdec, hlength⟩ | ⟨hno, hnonneg, hlt⟩ | ⟨hpos, hlt, hmissing⟩)
    · obtain ⟨heq, hlt⟩ := (hread rest hfield hdec).mpr hlength
      refine ⟨fun _ => ⟨fun rest' hfield' _ => ?_, fun hno => ?_⟩, fun _ => by omega⟩
      · obtain rfl := Option.some.inj (hfield'.symm.trans hfield)
        exact heq
      · exact absurd ⟨rest, hfield, hdec⟩ hno
    · refine ⟨fun _ => ⟨fun rest hfield hdec => ?_, fun _ => hnonneg⟩, fun _ => hlt⟩
      exact absurd ⟨rest, hfield, hdec⟩ hno
    · refine ⟨fun hreturned => ?_, fun _ => hlt⟩
      exact absurd hreturned (not_or.mpr ⟨hpos.not_ge, hmissing⟩)
  · rintro ⟨hret, hlt⟩
    by_cases hreturned : atoi taken ≤ 0 ∨ BodyArrives mem socket (atoi taken).toNat
    · obtain ⟨hdigits, hothers⟩ := hret hreturned
      by_cases hdecimal : HasDecimalField text
      · obtain ⟨rest, hfield, hdec⟩ := hdecimal
        have heq := hdigits rest hfield hdec
        refine Or.inl ⟨rest, hfield, hdec, (hread rest hfield hdec).mp ⟨heq, ?_⟩⟩
        by_cases hpos : 0 < atoi taken
        · have := hlt hpos
          omega
        · omega
      · refine Or.inr (Or.inl ⟨hdecimal, hothers hdecimal, ?_⟩)
        by_cases hpos : 0 < atoi taken
        · exact hlt hpos
        · omega
    · obtain ⟨hpos, hmissing⟩ := not_or.mp hreturned
      exact Or.inr (Or.inr ⟨not_le.mp hpos, hlt (not_le.mp hpos), hmissing⟩)

/-- Where no message is returned and no body announced, only the arrays are asked for. -/
theorem lengthTaken_of_no_message {r : Receive L} (hfits : r.outcome ≠ .fault .arrayOverrun)
    (hnone : ∀ m, r.outcome ≠ .returned m)
    (hdecl : mem.buffer = true → ∀ text n, headerText socket = some text →
      declaredBody parseLine mem.message text ≠ some n) :
    LengthTaken parseLine mem socket r where
  inArrays := hfits
  digits := fun _ _ m _ _ _ hm => absurd hm (hnone m)
  others := fun _ m _ _ hm => absurd hm (hnone m)
  allocation := fun hbuf text n ht hd => absurd hd (hdecl hbuf text n ht)

section Accepted

variable (hbuf : mem.buffer = true) {h : Nat} (hh : headerEnd socket.bytes = some h)
  (hle : h ≤ defaultBufferSize) (ht : headerText socket = some (headText socket h))
  (hacc : AcceptsHead parseLine mem.message (headText socket h))
include hbuf hh hle ht hacc

/-- Without a length in the head the length is zero. -/
theorem lengthTaken_of_no_field
    (hnone : lengthHeader parseLine mem.message (headText socket h) = none) :
    LengthTaken parseLine mem socket
      (receiveHttpMessage (deserializeHttpHeader parseLine) mem socket) := by
  obtain ⟨headers, -, hfield, hdecl, hret, -⟩ := receive_length hbuf hh hle hacc
  have hzero : contentLength headers = 0 := by rw [contentLength, hfield.symm.trans hnone]
  rw [hzero, if_neg (lt_irrefl 0)] at hdecl
  refine ⟨receive_inArrays_of_accepts hbuf ht hacc, fun text rest m ht' hrest _ _ => ?_,
    fun text m _ _ hm => ?_, fun _ text n ht' hd => ?_⟩
  · -- a field would have been found
    obtain rfl := Option.some.inj (ht.symm.trans ht')
    obtain ⟨taken, htaken, -⟩ := lengthHeader_of_field zero_notMem_headText hacc hrest
    rw [hnone] at htaken
    cases htaken
  · exact ⟨0, by rw [(hret m hm).2, hzero], le_rfl⟩
  · obtain rfl := Option.some.inj (ht.symm.trans ht')
    rw [hdecl] at hd
    cases hd

variable {taken : List UInt8}
  (htaken : lengthHeader parseLine mem.message (headText socket h) = some taken)
include htaken

/-- What an accepted head with a length asks of it. -/
theorem lengthTaken_iff_spared :
    LengthTaken parseLine mem socket
        (receiveHttpMessage (deserializeHttpHeader parseLine) mem socket) ↔
      LengthSpared mem socket (headText socket h) taken := by
  obtain ⟨headers, -, hfield, hdecl, hret, hiff⟩ := receive_length hbuf hh hle hacc
  have hatoi : contentLength headers = atoi taken := by
    rw [contentLength, hfield.symm.trans htaken]
  rw [hatoi] at hdecl hret hiff
  rw [lengthSpared_iff fun rest hrest hdec => by
    obtain ⟨taken', htaken', hread⟩ := lengthHeader_of_field zero_notMem_headText hacc hrest
    obtain rfl := Option.some.inj (htaken.symm.trans htaken')
    exact hread hdec]
  have honly : ∀ text, headerText socket = some text → text = headText socket h :=
    fun text ht' => Option.some.inj (ht'.symm.trans ht)
  constructor
  · intro hlength
    refine ⟨fun hreturned => ?_, fun hpos => ?_⟩
    · obtain ⟨m, hm⟩ := hiff.mpr hreturned
      have hlen := (hret m hm).2
      refine ⟨fun rest hrest hdec => ?_, fun hno => ?_⟩
      · have hbody := hlength.digits _ rest m ht hrest hdec hm
        rw [hlen] at hbody
        exact Option.some.inj hbody
      · obtain ⟨n, hbody, hnonneg⟩ := hlength.others _ m ht hno hm
        rw [hlen] at hbody
        obtain rfl := Option.some.inj hbody
        exact hnonneg
    · rw [if_pos hpos] at hdecl
      have := hlength.allocation hbuf _ _ ht hdecl
      omega
  · rintro ⟨hlength, hlt⟩
    refine ⟨receive_inArrays_of_accepts hbuf ht hacc, fun text rest m ht' hrest hdec hm => ?_,
      fun text m ht' hno hm => ?_, fun _ text n ht' hd => ?_⟩
    · obtain rfl := honly text ht'
      rw [(hret m hm).2, (hlength (hiff.mp ⟨m, hm⟩)).1 rest hrest hdec]
    · obtain rfl := honly text ht'
      exact ⟨_, (hret m hm).2, (hlength (hiff.mp ⟨m, hm⟩)).2 hno⟩
    · obtain rfl := honly text ht'
      rw [hdecl] at hd
      split at hd
      · obtain rfl := Option.some.inj hd
        have := hlt ‹_›
        omega
      · cases hd

end Accepted

end Receive

private theorem receive_lengthTaken_iff {L : Type} (parseLine : List UInt8 → ParsedLine L)
    (mem : ReceiveMemory) (socket : ByteSource UInt8) :
    LengthTaken parseLine mem socket
        (receiveHttpMessage (deserializeHttpHeader parseLine) mem socket) ↔
      (mem.buffer = true → ∀ text, headerText socket = some text →
        ¬ OverrunsLine parseLine mem.message text ∧
          ∀ taken, lengthHeader parseLine mem.message text = some taken →
            LengthSpared mem socket text taken) := by
  rcases receive_trichotomy parseLine mem socket with hno | ⟨hbuf, text, ht, hrej⟩ |
      ⟨hbuf, h, hh, hle, ht, hacc⟩
  · -- no header text, no message
    have hnull := (receive_of_no_text parseLine hno).1
    apply iff_of_true
    · apply lengthTaken_of_no_message
      · rw [hnull]
        simp
      · intro m hm
        rw [hnull] at hm
        cases hm
      · exact fun hbuf text n ht => absurd (ht.symm.trans (hno hbuf)) (Option.some_ne_none text)
    · exact fun hbuf text ht => absurd (ht.symm.trans (hno hbuf)) (Option.some_ne_none text)
  · -- a rejected text, no message either
    have hover : (receiveHttpMessage (deserializeHttpHeader parseLine) mem socket).outcome =
        .fault .arrayOverrun ↔ OverrunsLine parseLine mem.message text :=
      receive_overrun_iff hbuf ht
    obtain ⟨f, hfault, -⟩ := (receive_of_not_accepts hbuf ht hrej).1
    constructor
    · intro hlength _ text' ht'
      obtain rfl := Option.some.inj (ht.symm.trans ht')
      refine ⟨mt hover.mpr hlength.inArrays, fun taken htaken => ?_⟩
      exact absurd (htaken.symm.trans (lengthHeader_of_not_accepts hrej))
        (Option.some_ne_none taken)
    · intro hspared
      apply lengthTaken_of_no_message
      · exact mt hover.mp (hspared hbuf text ht).1
      · intro m hm
        rw [hfault] at hm
        cases hm
      · intro _ text' n ht' hd
        obtain rfl := Option.some.inj (ht.symm.trans ht')
        exact Option.some_ne_none n (hd.symm.trans (declaredBody_of_not_accepts hrej))
  · -- an accepted text: the words fit, and what counts is what the field is taken for
    have hfits : ¬ OverrunsLine parseLine mem.message (headText socket h) :=
      mt (receive_overrun_iff hbuf ht).mpr (receive_inArrays_of_accepts hbuf ht hacc)
    simp only [hbuf, true_implies, ht, Option.some.injEq, forall_eq', hfits, not_false_eq_true,
      true_and]
    cases htaken : lengthHeader parseLine mem.message (headText socket h) with
    | none =>
      exact iff_of_true (lengthTaken_of_no_field hbuf hh hle ht hacc htaken)
        fun taken h => absurd h.symm (Option.some_ne_none taken)
    | some taken =>
      simp only [Option.some.injEq, forall_eq']
      exact lengthTaken_iff_spared hbuf hh hle ht hacc htaken

/-- A request whose field is `v`, with what stands behind its colon, and a body of five bytes. -/
def requestWithLength (v : List UInt8) : ByteSource UInt8 :=
  ⟨[bytes "GET / HTTP/1.1\r\nContent-Length:" ++ v ++ doubleEndLine ++ bytes "hello"], .closed⟩

end SelectServer
