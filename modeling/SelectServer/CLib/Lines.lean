import SelectServer.CLib.Strings

/-!
# Blocks of CRLF-terminated lines

The head of a message of a line-based protocol: lines, each ended by CRLF, and an empty
line. A reader that looks for the first `\r\n\r\n` and one that tokenises at CR and LF agree
on such a block (`strstr_lineBlock`, `tokens_lineBlock_cons`), whatever follows it.
-/

namespace CLib

/-- The line ending, and the delimiters at which `strtok` cuts lines. -/
def crlf : List UInt8 := [13, 10]

/-- The end of a block: a line ending and an empty line. -/
def doubleEndLine : List UInt8 := [13, 10, 13, 10]

@[simp] theorem length_doubleEndLine : doubleEndLine.length = 4 := rfl

theorem doubleEndLine_ne_nil : doubleEndLine ≠ [] := by
  simp [doubleEndLine]

/-- A line: not empty, and free of CR, LF and NUL. -/
structure IsLine (l : List UInt8) : Prop where
  ne_nil : l ≠ []
  no_cr : 13 ∉ l
  no_lf : 10 ∉ l
  no_nul : 0 ∉ l

/-- The text of a block. -/
def lineBlock (lines : List (List UInt8)) : List UInt8 := lines.flatMap (· ++ crlf) ++ crlf

theorem IsLine.notMem_crlf {l : List UInt8} (h : IsLine l) : ∀ c ∈ l, c ∉ crlf := by
  intro c hc hm
  simp only [crlf, List.mem_cons, List.not_mem_nil, or_false] at hm
  rcases hm with rfl | rfl
  · exact h.no_cr hc
  · exact h.no_lf hc

theorem lineBlock_cons (l : List UInt8) (ls : List (List UInt8)) :
    lineBlock (l :: ls) = l ++ 13 :: 10 :: lineBlock ls := by
  simp [lineBlock, crlf]

@[simp] theorem lineBlock_nil : lineBlock [] = crlf := rfl

theorem length_lineBlock_cons (l : List UInt8) (ls : List (List UInt8)) :
    (lineBlock (l :: ls)).length = l.length + 2 + (lineBlock ls).length := by
  rw [lineBlock_cons, List.length_append, List.length_cons, List.length_cons]
  omega

theorem two_le_length_lineBlock (ls : List (List UInt8)) : 2 ≤ (lineBlock ls).length := by
  simp [lineBlock, crlf]

theorem zero_notMem_lineBlock {lines : List (List UInt8)} (h : ∀ l ∈ lines, IsLine l) :
    0 ∉ lineBlock lines := by
  induction lines with
  | nil => decide
  | cons l ls ih =>
    have hl := (h l List.mem_cons_self).no_nul
    have hls := ih fun x hx => h x (List.mem_cons_of_mem _ hx)
    simp [lineBlock_cons, hl, hls]

/-- The first empty line is the one that ends the block. -/
theorem strstr_lineBlock {lines : List (List UInt8)} (hne : lines ≠ [])
    (h : ∀ l ∈ lines, IsLine l) (t : List UInt8) :
    strstr doubleEndLine (lineBlock lines ++ t) = some ((lineBlock lines).length - 4) := by
  induction lines with
  | nil => exact absurd rfl hne
  | cons l ls ih =>
    have hl := h l List.mem_cons_self
    rw [length_lineBlock_cons, lineBlock_cons, List.append_assoc, doubleEndLine,
      strstr_append_of_notMem hl.no_cr]
    cases ls with
    | nil => simp [strstr, crlf]
    | cons l' ls =>
      have hl' := h l' (by simp)
      obtain ⟨c, cs, hc⟩ := List.exists_cons_of_ne_nil hl'.ne_nil
      have hcr : c ≠ 13 := fun he => hl'.no_cr (by simp [hc, he])
      have hrest := ih (by simp) fun x hx => h x (List.mem_cons_of_mem _ hx)
      -- neither CR LF of the line's end starts an empty line: the next line is not empty
      have h13 : ¬ [13, 10, 13, 10] <+: 13 :: 10 :: (lineBlock (l' :: ls) ++ t) := by
        simp [lineBlock_cons, hc, List.cons_prefix_cons, hcr.symm]
      have h10 : ¬ [13, 10, 13, 10] <+: 10 :: (lineBlock (l' :: ls) ++ t) := by
        simp [List.cons_prefix_cons]
      have hlen := two_le_length_lineBlock ls
      rw [List.cons_append, List.cons_append, strstr_cons_of_not_isPrefix h13,
        strstr_cons_of_not_isPrefix h10]
      rw [doubleEndLine] at hrest
      simp only [hrest, Option.map_some, length_lineBlock_cons]
      congr 1
      omega

/-- Tokenising at CR and LF yields the lines of the block. -/
theorem tokens_lineBlock_cons {l : List UInt8} (hl : IsLine l) (ls : List (List UInt8)) :
    tokens crlf (lineBlock (l :: ls)) =
      ⟨l, some (10 :: lineBlock ls)⟩ :: tokens crlf (lineBlock ls) := by
  rw [lineBlock_cons, tokens_line hl.ne_nil hl.notMem_crlf (by simp [crlf]),
    tokens_cons_delim (by simp [crlf])]

theorem tokens_lineBlock_nil : tokens crlf (lineBlock []) = [] := by
  decide

/-- The first token of a text that starts with a block is its first line. -/
theorem strtok_lineBlock_cons {l : List UInt8} (hl : IsLine l) (ls : List (List UInt8))
    (t : List UInt8) :
    strtok crlf (lineBlock (l :: ls) ++ t) = some ⟨l, some (10 :: (lineBlock ls ++ t))⟩ := by
  rw [lineBlock_cons, List.append_assoc]
  exact strtok_line hl.ne_nil hl.notMem_crlf (by simp [crlf]) _

end CLib
