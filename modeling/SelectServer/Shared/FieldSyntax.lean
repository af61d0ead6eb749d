import SelectServer.Shared.ContentLength
import SelectServer.Shared.HeaderLines
import SelectServer.Shared.Pipeline

/-!
# Header fields as HTTP/1.1 writes them

In HTTP/1.1, field names are compared without case, and there may be blanks on both sides of a
value. `deserialize_headers` takes for the value what starts two bytes behind the colon, and
`find_header_value` compares names byte by byte, so that the length of a body is found under
some spellings of its field only (`length_determined_iff`). How the other fields are spelt does
not matter.
-/

namespace SelectServer

open CLib

/-! ## Fields -/

/-- An ASCII letter in lower case; other bytes as they are. -/
def lowerByte (c : UInt8) : UInt8 := if 65 ≤ c ∧ c ≤ 90 then c + 32 else c

/-- Two names that differ in case at most. -/
def SameName (x y : List UInt8) : Prop := x.map lowerByte = y.map lowerByte

instance (x y : List UInt8) : Decidable (SameName x y) := inferInstanceAs (Decidable (_ = _))

theorem SameName.congr {x y : List UInt8} (h : SameName x y) (z : List UInt8) :
    SameName x z ↔ SameName y z := by
  rw [SameName, SameName, h]

/-- A field: its name, and its value with the white space on both sides. -/
structure Field where
  name : List UInt8
  before : List UInt8
  value : List UInt8
  after : List UInt8
  deriving DecidableEq, Repr

/-- What stands behind the colon. -/
def Field.rest (f : Field) : List UInt8 := f.before ++ (f.value ++ f.after)

/-- The line of a field, without its line ending. -/
def Field.line (f : Field) : List UInt8 := f.name ++ 58 :: f.rest

/-- The name is a token, the white space is white, and the value stays in its line. -/
structure Field.WellFormed (f : Field) : Prop where
  name : IsToken f.name
  before : ∀ c ∈ f.before, isBlank c = true
  value : ∀ c ∈ f.value, c ≠ 13 ∧ c ≠ 10 ∧ c ≠ 0
  after : ∀ c ∈ f.after, isBlank c = true

/-- Two spellings of a field. -/
def Field.Respells (f g : Field) : Prop := SameName f.name g.name ∧ f.value = g.value

/-- The head of a request: its request line and its fields. -/
structure FieldHead where
  line : RequestLine
  fields : List Field
  deriving DecidableEq, Repr

/-- The text of a head. -/
def FieldHead.text (h : FieldHead) : List UInt8 :=
  lineBlock (h.line.line :: h.fields.map Field.line)

/-- A request line of three words, of which the method has no colon, and well-formed fields. -/
structure FieldHead.WellFormed (h : FieldHead) : Prop where
  method : IsToken h.line.method
  uri : IsWord h.line.uri
  version : IsWord h.line.version
  fields : ∀ f ∈ h.fields, f.WellFormed

/-- The words of the request line fit the arrays that `sscanf` fills, and the text fits the
buffer. -/
structure FieldHead.Fits (h : FieldHead) : Prop where
  method : h.line.method.length < methodSize
  uri : h.line.uri.length < uriSize
  version : h.line.version.length < versionSize
  text : h.text.length ≤ defaultBufferSize

/-- The fields with the name `Content-Length`, compared without case. -/
def FieldHead.lengthFields (h : FieldHead) : List Field :=
  h.fields.filter fun f => SameName f.name (bytes "Content-Length")

/-- A `Content-Length` field occurs once, and its value is `n`. -/
def FieldHead.Announces (h : FieldHead) (n : Nat) : Prop :=
  ∃ f, h.lengthFields = [f] ∧ IsDecimal f.value ∧ digitsValue f.value = n

/-- The spellings under which the length is found: the name in exactly this case, and behind
its colon a byte that does not count. A length of zero need not be found. -/
def FieldHead.Recognised (h : FieldHead) (n : Nat) : Prop :=
  n = 0 ∨ ∀ f ∈ h.lengthFields, f.name = bytes "Content-Length" ∧
    (f.before ≠ [] ∨ f.value.head? = some 48)

/-- Two heads that differ in the case of field names and in optional white space at most. -/
structure FieldHead.Respells (h g : FieldHead) : Prop where
  line : h.line = g.line
  fields : List.Forall₂ Field.Respells h.fields g.fields

/-- The call takes `n` for the length of the body: a request it returns has it, and the block
for the body is made for it. -/
structure DeterminesLength (mem : ReceiveMemory) (socket : ByteSource UInt8) (n : Nat) :
    Prop where
  returned : ∀ m, (receiveHttpRequest mem socket).outcome = .returned m →
    m.bodyLength = some (n : Int)
  block : (receiveHttpRequest mem socket).block.map Block.size =
    if 0 < n then some (n + 1) else none

/-! ## Lines of fields -/

section Line

variable {f : Field} {key l : List UInt8}

theorem Field.WellFormed.rest_notMem (hf : f.WellFormed) :
    ∀ c ∈ f.rest, c ≠ 13 ∧ c ≠ 10 ∧ c ≠ 0 := by
  have hblank : ∀ c, isBlank c = true → c ≠ 13 ∧ c ≠ 10 ∧ c ≠ 0 := by
    intro c hc
    simp only [isBlank, Bool.or_eq_true, beq_iff_eq] at hc
    rcases hc with rfl | rfl <;> decide
  intro c hc
  simp only [Field.rest, List.mem_append] at hc
  rcases hc with hc | hc | hc
  · exact hblank c (hf.before c hc)
  · exact hf.value c hc
  · exact hblank c (hf.after c hc)

theorem Field.WellFormed.isLine (hf : f.WellFormed) : IsLine f.line := by
  have hname := hf.name.isWord.isLine
  have hrest := hf.rest_notMem
  refine ⟨by simp [Field.line], ?_, ?_, ?_⟩ <;>
    simp only [Field.line, List.mem_append, List.mem_cons, not_or]
  · exact ⟨hname.no_cr, by decide, fun hm => (hrest _ hm).1 rfl⟩
  · exact ⟨hname.no_lf, by decide, fun hm => (hrest _ hm).2.1 rfl⟩
  · exact ⟨hname.no_nul, by decide, fun hm => (hrest _ hm).2.2 rfl⟩

theorem Field.WellFormed.key_line (hf : f.WellFormed) :
    f.line.takeWhile (· != 58) = f.name := by
  rw [Field.line, List.takeWhile_append_of_pos]
  · simp
  · intro c hc
    have hne : c ≠ 58 := fun heq => hf.name.no_colon (heq ▸ hc)
    simpa using hne

/-- A line whose key is another is passed over. -/
theorem findHeaderValue_of_key_ne (hl : IsLine l) (hkey : l.takeWhile (· != 58) ≠ key)
    (junk : List UInt8) (ls : List (List UInt8)) :
    findHeaderValue (headersOfText junk (lineBlock (l :: ls))) key =
      findHeaderValue (headersOfText junk (lineBlock ls)) key := by
  simp only [headersOfText]
  rw [tokens_lineBlock_cons hl, List.filterMap_cons]
  cases hline : headerOfLine junk ⟨l, some (10 :: lineBlock ls)⟩ with
  | none => rfl
  | some hd =>
    obtain ⟨after, -, -, rfl⟩ := headerOfLine_eq_some hline
    simp [findHeaderValue, hkey]

/-- The value that is found under the name of a field begins two bytes behind its colon. -/
theorem findHeaderValue_name (hf : f.WellFormed) (hrest : f.rest ≠ []) (junk : List UInt8)
    (ls : List (List UInt8)) :
    findHeaderValue (headersOfText junk (lineBlock (f.line :: ls))) f.name =
      some (f.rest.drop 1) := by
  obtain ⟨c, r, hcons⟩ := List.exists_cons_of_ne_nil hrest
  have hnul : 0 ∉ r := by
    intro hzero
    exact (hf.rest_notMem 0 (by simp [hcons, hzero])).2.2 rfl
  have hheader : headerOfLine junk ⟨f.line, some (10 :: lineBlock ls)⟩ = some ⟨f.name, r⟩ := by
    have hkey := hf.key_line
    rw [Field.line, hcons] at hkey
    simp only [headerOfLine, Field.line, hcons, strchr_append_cons hf.name.no_colon, hkey,
      List.cons_append, List.drop_succ_cons, List.drop_zero, cstr_append_nul, cstr_eq_self hnul]
  simp only [headersOfText]
  rw [tokens_lineBlock_cons hf.isLine, List.filterMap_cons, hheader]
  simp [findHeaderValue, hcons]

/-- Fields with other names are passed over. -/
theorem findHeaderValue_of_names_ne {fs : List Field} (hfs : ∀ f ∈ fs, f.WellFormed)
    (hkey : ∀ f ∈ fs, f.name ≠ key) (junk : List UInt8) (ls : List (List UInt8)) :
    findHeaderValue (headersOfText junk (lineBlock (fs.map Field.line ++ ls))) key =
      findHeaderValue (headersOfText junk (lineBlock ls)) key := by
  induction fs with
  | nil => rfl
  | cons f fs ih =>
    have hf := hfs f List.mem_cons_self
    have hne : f.line.takeWhile (· != 58) ≠ key := by
      rw [hf.key_line]
      exact hkey f List.mem_cons_self
    rw [List.map_cons, List.cons_append, findHeaderValue_of_key_ne hf.isLine hne]
    exact ih (fun g hg => hfs g (List.mem_cons_of_mem _ hg))
      fun g hg => hkey g (List.mem_cons_of_mem _ hg)

end Line

/-! ## The length of a head -/

section Head

variable {h : FieldHead} {f : Field} {n : Nat}

theorem FieldHead.WellFormed.isLine (hw : h.WellFormed) :
    ∀ l ∈ h.line.line :: h.fields.map Field.line, IsLine l := by
  intro l hl
  rcases List.mem_cons.mp hl with rfl | hl
  · exact RequestLine.isLine_line hw.method.isWord hw.uri hw.version
  · obtain ⟨f, hf, rfl⟩ := List.mem_map.mp hl
    exact (hw.fields f hf).isLine

/-- In front of the first colon of a request line there is a blank, or no colon at all. -/
theorem FieldHead.WellFormed.key_line (hw : h.WellFormed) :
    h.line.line.takeWhile (· != 58) ≠ bytes "Content-Length" := by
  have hblank : 32 ∈ h.line.line.takeWhile (· != 58) := by
    rw [RequestLine.line, List.takeWhile_append_of_pos]
    · simp
    · intro c hc
      have hne : c ≠ 58 := fun heq => hw.method.no_colon (heq ▸ hc)
      simpa using hne
  intro heq
  rw [heq] at hblank
  revert hblank
  decide

/-- The value that `find_header_value` returns for `Content-Length` comes from the one field
with this name, if it is spelt so. -/
theorem findHeaderValue_text (hw : h.WellFormed) (hone : h.lengthFields = [f])
    (hvalue : f.value ≠ []) (junk : List UInt8) :
    findHeaderValue (headersOfText junk h.text) (bytes "Content-Length") =
      if f.name = bytes "Content-Length" then some (f.rest.drop 1) else none := by
  obtain ⟨fs, gs, hfields, hfs, -, hgs⟩ := List.filter_eq_cons_iff.mp hone
  have hname : ∀ g : Field, ¬ decide (SameName g.name (bytes "Content-Length")) = true →
      g.name ≠ bytes "Content-Length" := by
    intro g hg heq
    rw [heq] at hg
    exact hg (by decide)
  have hmem : ∀ g ∈ fs ++ f :: gs, g.WellFormed := fun g hg => hw.fields g (hfields ▸ hg)
  have hf := hmem f (by simp)
  have hbefore := findHeaderValue_of_names_ne (fun g hg => hmem g (by simp [hg]))
    (fun g hg => hname g (hfs g hg)) junk (f.line :: gs.map Field.line)
  have hafter := findHeaderValue_of_names_ne (fun g hg => hmem g (by simp [hg]))
    (fun g hg => hname g (List.filter_eq_nil_iff.mp hgs g hg)) junk []
  -- the request line and the fields in front are passed over, those behind are not reached
  rw [FieldHead.text, findHeaderValue_of_key_ne (hw.isLine _ List.mem_cons_self) hw.key_line,
    hfields, List.map_append, List.map_cons, hbefore]
  split
  · rename_i heq
    rw [← heq]
    exact findHeaderValue_name hf (by simp [Field.rest, hvalue]) junk _
  · rename_i hne
    rw [findHeaderValue_of_key_ne hf.isLine (by rwa [hf.key_line])]
    rw [List.append_nil] at hafter
    rw [hafter]
    rfl

/-- What `atoi` makes of the value two bytes behind the colon: with white space in front of the
digits their number, without it the number without its first digit. -/
theorem atoi_rest (hf : f.WellFormed) (hdec : IsDecimal f.value)
    (hlt : digitsValue f.value < 2 ^ 31) :
    ∃ k : Nat, atoi (f.rest.drop 1) = k ∧ k ≤ digitsValue f.value ∧
      (k = digitsValue f.value ↔ f.before ≠ [] ∨ f.value.head? = some 48) := by
  obtain ⟨k, hk, hle, hiff⟩ := atoi_behindColon hf.before hdec hf.after
  refine ⟨k, ?_, hle, hiff⟩
  rw [Field.rest, hk, clampLong_eq_self (by omega) (by omega),
    toInt32_eq_self (by omega) (by omega)]

/-- The length that the headers of a head have, against the one it announces. -/
theorem contentLength_text (hw : h.WellFormed) (hn : h.Announces n) (hlt : n < 2 ^ 31)
    (junk : List UInt8) :
    ∃ k : Nat, contentLength (headersOfText junk h.text) = k ∧ k ≤ n ∧
      (k = n ↔ h.Recognised n) := by
  obtain ⟨f, hone, hdec, rfl⟩ := hn
  have hmem : f ∈ h.lengthFields := by simp [hone]
  have hf := hw.fields f (List.mem_of_mem_filter hmem)
  have hfind := findHeaderValue_text hw hone hdec.1 junk
  by_cases hname : f.name = bytes "Content-Length"
  · rw [if_pos hname] at hfind
    obtain ⟨k, hk, hle, hiff⟩ := atoi_rest hf hdec hlt
    have hlength : contentLength (headersOfText junk h.text) = k := by
      rw [contentLength, hfind]
      exact hk
    refine ⟨k, hlength, hle, ?_⟩
    rw [FieldHead.Recognised, hone]
    simp only [List.mem_singleton, forall_eq, hname, true_and, ← hiff]
    omega
  · -- a field that is not found counts as a length of zero
    rw [if_neg hname] at hfind
    refine ⟨0, by rw [contentLength, hfind]; rfl, Nat.zero_le _, ?_⟩
    rw [FieldHead.Recognised, hone]
    simp only [List.mem_singleton, forall_eq, hname, false_and, or_false]
    exact eq_comm

/-- A respelt head announces the same length. -/
theorem FieldHead.Respells.announces {g : FieldHead} (hg : h.Respells g) (hn : h.Announces n) :
    g.Announces n := by
  obtain ⟨f, hone, hdec, hvalue⟩ := hn
  have hfields : List.Forall₂ Field.Respells h.lengthFields g.lengthFields := by
    refine List.rel_filter (fun x y hxy => ?_) hg.fields
    simp only [decide_eq_true_eq]
    exact hxy.1.congr _
  rw [hone] at hfields
  obtain ⟨f', fs, hf, hnil, hone'⟩ := List.forall₂_cons_left_iff.mp hfields
  obtain rfl := List.forall₂_nil_left_iff.mp hnil
  rw [hf.2] at hdec hvalue
  exact ⟨f', hone', hdec, hvalue⟩

end Head

/-! ## Receiving it -/

section Receive

variable {mem : ReceiveMemory} {socket : ByteSource UInt8}

/-- With an accepted head, the length of the message and the size of the block for its body are
those of its headers. -/
theorem determinesLength_of_accepts (hmem : mem.Succeeds) {e : Nat}
    (hh : headerEnd socket.bytes = some e) (hle : e ≤ defaultBufferSize)
    (hacc : AcceptsHead parseRequestLine mem.message (headText socket e)) {k : Nat}
    (hk : contentLength (headersOfText mem.message.headers.junk ((headText socket e).take e)) = k)
    (hlt : k + 1 < 2 ^ 31) : DeterminesLength mem socket k := by
  obtain ⟨headers, rfl, -, hdecl, hret, -⟩ := receive_length hmem.1 hh hle hacc
  rw [hk] at hdecl hret
  rw [Int.toNat_natCast] at hdecl
  refine ⟨fun m hm => (hret m hm).2, ?_⟩
  rw [receiveHttpRequest, deserializeHttpRequestHeader]
  by_cases hpos : 0 < k
  · rw [if_pos (Int.natCast_pos.mpr hpos)] at hdecl
    obtain ⟨_, _, _, _, block, -, -, -, -, -, hr, -, hsize, -⟩ :=
      receive_body hmem.1 hh hle hacc hdecl ⟨hmem.2.2, hlt⟩
    rw [hr, if_pos hpos]
    simp [hsize]
  · -- no body is declared, and no block is made
    rw [if_neg (mt Int.natCast_pos.mp hpos)] at hdecl
    obtain ⟨_, _, _, _, -, -, -, hr, -⟩ := receive_noBody hmem.1 hh hle hacc hdecl
    rw [hr, if_neg hpos]
    rfl

/-- A call determines one length only. -/
theorem DeterminesLength.unique {m n : Nat} (hm : DeterminesLength mem socket m)
    (hn : DeterminesLength mem socket n) : m = n := by
  have hblock := hm.block.symm.trans hn.block
  split at hblock <;> split at hblock
  · simpa using hblock
  · cases hblock
  · cases hblock
  · omega

variable {h : FieldHead} {n : Nat}

private theorem determinesLength_iff (hw : h.WellFormed) (hn : h.Announces n)
    (hlt : n + 1 < 2 ^ 31) (hfits : h.Fits) (hmem : mem.Succeeds)
    (hs : h.text <+: socket.bytes) : DeterminesLength mem socket n ↔ h.Recognised n := by
  obtain ⟨t, ht⟩ := hs
  have hlines := hw.isLine
  have hh : headerEnd socket.bytes = some h.text.length := headerEnd_lineBlock hlines ht.symm
  have hacc : AcceptsHead parseRequestLine mem.message (headText socket h.text.length) :=
    accepts_lineBlock hmem.2.1 hlines
      (parseRequestLine_line hw.method.isWord hw.uri hw.version
        (fitsArrays_three.mpr ⟨hfits.method, hfits.uri, hfits.version⟩)) ht.symm
  obtain ⟨t', ht'⟩ : ∃ t', headText socket h.text.length = h.text ++ t' :=
    headText_lineBlock hlines ht.symm
  obtain ⟨k, hk, hle, hiff⟩ := contentLength_text hw hn (by omega) mem.message.headers.junk
  have hdet : DeterminesLength mem socket k := by
    refine determinesLength_of_accepts hmem hh hfits.text hacc ?_ (by omega)
    rw [ht', List.take_left, hk]
  rw [← hiff]
  constructor
  · exact hdet.unique
  · rintro rfl
    exact hdet

/-- For a head that announces a length once, in whatever case and with whatever white space, the
call determines this length exactly if the field is spelt `Content-Length` with a blank or tab
behind its colon, or the number is not changed by its first digit, or it is zero. The same goes
for every other spelling of the head: the other fields do not matter. -/
theorem length_determined_iff (hw : h.WellFormed) (hn : h.Announces n) (hlt : n + 1 < 2 ^ 31)
    (hfits : h.Fits) (hmem : mem.Succeeds) (hs : h.text <+: socket.bytes) :
    (DeterminesLength mem socket n ↔ h.Recognised n) ∧
      ∀ g mem' socket', h.Respells g → g.WellFormed → g.Fits → mem'.Succeeds →
        g.text <+: socket'.bytes → (DeterminesLength mem' socket' n ↔ g.Recognised n) := by
  refine ⟨determinesLength_iff hw hn hlt hfits hmem hs, ?_⟩
  intro g mem' socket' hg hw' hfits' hmem' hs'
  exact determinesLength_iff hw' (hg.announces hn) hlt hfits' hmem' hs'

end Receive

/-- A head with one field, of value 5. -/
def headOfFive (name before : List UInt8) : FieldHead :=
  ⟨bareRequest.line, [⟨name, before, [53], []⟩]⟩

/-- The stream of a head and five bytes behind it. -/
def FieldHead.stream (h : FieldHead) : ByteSource UInt8 := ⟨[h.text ++ bytes "hello"], .closed⟩

section Five

variable {name before : List UInt8}

theorem headOfFive_wellFormed (hname : IsToken name) (hbefore : ∀ c ∈ before, isBlank c = true) :
    (headOfFive name before).WellFormed where
  method := bareRequest_wellFormed.method
  uri := bareRequest_wellFormed.uri.isWord
  version := bareRequest_wellFormed.version.isWord
  fields := by
    intro f hf
    obtain rfl := List.mem_singleton.mp hf
    have hvalue : ∀ c ∈ [(53 : UInt8)], c ≠ 13 ∧ c ≠ 10 ∧ c ≠ 0 := by decide
    exact ⟨hname, hbefore, hvalue, by simp⟩

theorem headOfFive_announces (hname : SameName name (bytes "Content-Length")) :
    (headOfFive name before).Announces 5 := by
  refine ⟨⟨name, before, [53], []⟩, ?_, (by decide : IsDecimal [53]), rfl⟩
  exact List.filter_cons_of_pos (decide_eq_true hname)

theorem headOfFive_fits (h : name.length + before.length ≤ 100) :
    (headOfFive name before).Fits := by
  refine ⟨bareRequest_fitsBuffers.method, bareRequest_fitsBuffers.uri,
    bareRequest_fitsBuffers.version, ?_⟩
  have hline : bareRequest.line.line.length = 14 := by decide
  rw [FieldHead.text, length_lineBlock_cons]
  simp only [headOfFive, hline, List.map_cons, List.map_nil, length_lineBlock_cons, lineBlock_nil,
    Field.line, Field.rest, List.length_append, List.length_cons, List.length_nil, crlf,
    defaultBufferSize]
  omega

theorem headOfFive_respells (hname : SameName (bytes "Content-Length") name) :
    (headOfFive (bytes "Content-Length") [32]).Respells (headOfFive name before) :=
  ⟨rfl, .cons ⟨hname, rfl⟩ .nil⟩

theorem text_isPrefix_stream (h : FieldHead) : h.text <+: h.stream.bytes :=
  ⟨bytes "hello", (List.append_nil _).symm⟩

end Five

theorem length_determined_five :
    DeterminesLength .ideal (headOfFive (bytes "Content-Length") [32]).stream 5 ∧
      ∀ g mem' socket', (headOfFive (bytes "Content-Length") [32]).Respells g → g.WellFormed →
        g.Fits → mem'.Succeeds → g.text <+: socket'.bytes →
          (DeterminesLength mem' socket' 5 ↔ g.Recognised 5) := by
  have hname : IsToken (bytes "Content-Length") := ⟨by decide, by decide, by decide, by decide⟩
  obtain ⟨hiff, hothers⟩ := length_determined_iff
    (headOfFive_wellFormed hname (by decide)) (headOfFive_announces rfl) (by decide)
    (headOfFive_fits (by decide)) ReceiveMemory.ideal_succeeds
    (text_isPrefix_stream (headOfFive (bytes "Content-Length") [32]))
  exact ⟨hiff.mpr (Or.inr (by decide)), hothers⟩

/-- The length 5 is found under one spelling of the field, but neither with a name in lower case
nor without a blank behind the colon: then the request is returned without its body. -/
theorem length_not_determined :
    (∀ name before, (name, before) ∈ [(bytes "Content-Length", [32]),
        (bytes "content-length", [32]), (bytes "Content-Length", [])] →
      (headOfFive name before).WellFormed ∧ (headOfFive name before).Announces 5 ∧
        (headOfFive name before).Fits ∧
        (headOfFive (bytes "Content-Length") [32]).Respells (headOfFive name before) ∧
        (headOfFive name before).text <+: (headOfFive name before).stream.bytes) ∧
      DeterminesLength .ideal (headOfFive (bytes "Content-Length") [32]).stream 5 ∧
      ¬ DeterminesLength .ideal (headOfFive (bytes "content-length") [32]).stream 5 ∧
      ¬ DeterminesLength .ideal (headOfFive (bytes "Content-Length") []).stream 5 := by
  have hname : IsToken (bytes "Content-Length") := ⟨by decide, by decide, by decide, by decide⟩
  have hlower : IsToken (bytes "content-length") := ⟨by decide, by decide, by decide, by decide⟩
  have hsame : SameName (bytes "content-length") (bytes "Content-Length") := by decide
  have hblank : ∀ c ∈ [(32 : UInt8)], isBlank c = true := by decide
  refine ⟨?_, ?_, fun hdet => ?_, fun hdet => ?_⟩
  · intro name before hmem
    simp only [List.mem_cons, Prod.mk.injEq, List.not_mem_nil, or_false] at hmem
    rcases hmem with ⟨rfl, rfl⟩ | ⟨rfl, rfl⟩ | ⟨rfl, rfl⟩
    · exact ⟨headOfFive_wellFormed hname hblank, headOfFive_announces rfl,
        headOfFive_fits (by decide), headOfFive_respells rfl, text_isPrefix_stream _⟩
    · exact ⟨headOfFive_wellFormed hlower hblank, headOfFive_announces hsame,
        headOfFive_fits (by decide), headOfFive_respells hsame.symm, text_isPrefix_stream _⟩
    · exact ⟨headOfFive_wellFormed hname (by simp), headOfFive_announces rfl,
        headOfFive_fits (by decide), headOfFive_respells rfl, text_isPrefix_stream _⟩
  · exact (determinesLength_iff (headOfFive_wellFormed hname hblank) (headOfFive_announces rfl)
      (by decide) (headOfFive_fits (by decide)) ReceiveMemory.ideal_succeeds
      (text_isPrefix_stream _)).mpr (Or.inr (by decide))
  · have hlength := hdet.returned
      (HTTPMessage.raw ⟨bareRequest.line, [⟨bytes "content-length", bytes "5"⟩], none, 0⟩)
      (by decide +kernel)
    revert hlength
    decide
  · have hlength := hdet.returned
      (HTTPMessage.raw ⟨bareRequest.line, [⟨bytes "Content-Length", []⟩], none, 0⟩)
      (by decide +kernel)
    revert hlength
    decide

end SelectServer
