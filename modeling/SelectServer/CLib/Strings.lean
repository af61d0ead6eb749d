import Mathlib.Data.List.Basic
import Mathlib.Data.List.Infix
import Mathlib.Data.List.TakeWhile
import Mathlib.Data.Nat.Find

/-!
# C strings over byte lists

The string functions of the C library that a text protocol is parsed with, over
`List UInt8`: a NUL-terminated view of a memory area (`cstr`), substring search
(`strstr`), tokenisation (`strtok`, and `tokens` for the loop around it) and the
`%s` conversion of `sscanf` (`scanWords`), which takes the first of the `words` of a text.

Substring search is stated over an arbitrary type with decidable equality; the other
functions fix the byte type because NUL and white space are bytes.
-/

namespace CLib

/-! ## Bytes -/

/-- The bytes of an ASCII literal. -/
def bytes (s : String) : List UInt8 := s.toList.map fun c => UInt8.ofNat c.toNat

/-- A property of all bytes of a text is decided along the text, not over all bytes there are. -/
instance (priority := 2000) decidableForallMem (p : UInt8 → Prop) [DecidablePred p]
    (s : List UInt8) : Decidable (∀ c ∈ s, p c) :=
  List.decidableBAll p s

/-- `isspace` in the C locale: blank, or one of `\t \n \v \f \r`. -/
def isspace (c : UInt8) : Bool := c == 32 || (9 ≤ c && c ≤ 13)

/-- The C string that starts a memory area: everything before the first NUL. -/
def cstr (mem : List UInt8) : List UInt8 := mem.takeWhile (· != 0)

theorem cstr_eq_self {s : List UInt8} (h : 0 ∉ s) : cstr s = s := by
  apply List.takeWhile_eq_self_iff.mpr
  intro c hc
  simpa using ne_of_mem_of_not_mem hc h

theorem cstr_append {s : List UInt8} (h : 0 ∉ s) (t : List UInt8) :
    cstr (s ++ t) = s ++ cstr t := by
  apply List.takeWhile_append_of_pos
  intro c hc
  simpa using ne_of_mem_of_not_mem hc h

@[simp] theorem cstr_zero_cons (t : List UInt8) : cstr (0 :: t) = [] := rfl

/-- Whatever stands behind a terminator does not count. -/
theorem cstr_append_nul (s t : List UInt8) : cstr (s ++ 0 :: t) = cstr s := by
  induction s with
  | nil => rfl
  | cons c s ih =>
    by_cases hc : c = 0
    · simp [cstr, hc]
    · simpa [cstr, hc] using ih

theorem zero_notMem_cstr (s : List UInt8) : 0 ∉ cstr s := by
  intro h
  simpa using List.mem_takeWhile_imp h

theorem cstr_isPrefix (s : List UInt8) : cstr s <+: s := List.takeWhile_prefix _

/-- Reading the C string of a longer prefix of memory only extends the one already read. -/
theorem cstr_take (s : List UInt8) (n : Nat) : cstr (s.take n) = (cstr s).take n := by
  induction s generalizing n with
  | nil => simp [cstr]
  | cons c cs ih =>
    cases n with
    | zero => simp [cstr]
    | succ n =>
      by_cases hc : c = 0
      · simp [cstr, hc]
      · have := ih n
        simp only [cstr] at this
        simp [cstr, hc, this]

/-! ## Substring search -/

section Search

variable {α : Type*} [DecidableEq α]

/-- `strstr`: the offset of the first occurrence of `needle`. -/
def strstr (needle : List α) : List α → Option Nat
  | [] => if needle.isEmpty then some 0 else none
  | c :: cs =>
    if needle.isPrefixOf (c :: cs) then some 0 else (strstr needle cs).map (· + 1)

theorem strstr_cons_of_isPrefix {needle : List α} {c : α} {cs : List α}
    (h : needle <+: c :: cs) : strstr needle (c :: cs) = some 0 := by
  simp [strstr, List.isPrefixOf_iff_prefix.mpr h]

theorem strstr_cons_of_not_isPrefix {needle : List α} {c : α} {cs : List α}
    (h : ¬ needle <+: c :: cs) :
    strstr needle (c :: cs) = (strstr needle cs).map (· + 1) := by
  have : needle.isPrefixOf (c :: cs) = false := by
    simpa [← List.isPrefixOf_iff_prefix] using h
  simp [strstr, this]

/-- The reported offset is the first one at which the needle occurs. -/
theorem strstr_eq_some_iff {needle hay : List α} {i : Nat} (hn : needle ≠ []) :
    strstr needle hay = some i ↔
      needle <+: hay.drop i ∧ ∀ j < i, ¬ needle <+: hay.drop j := by
  induction hay generalizing i with
  | nil => simp [strstr, hn]
  | cons c cs ih =>
    -- the needle stands at the front, or the search goes on behind the first letter
    by_cases hp : needle <+: c :: cs
    · rw [strstr_cons_of_isPrefix hp]
      constructor
      · rintro ⟨⟩
        exact ⟨by simpa using hp, by omega⟩
      · rintro ⟨-, hmin⟩
        cases i with
        | zero => rfl
        | succ i => exact absurd hp (hmin 0 (Nat.succ_pos i))
    · rw [strstr_cons_of_not_isPrefix hp]
      cases i with
      | zero => simpa using hp
      | succ i =>
        simp only [Option.map_eq_some_iff, Nat.add_right_cancel_iff, exists_eq_right, ih,
          List.drop_succ_cons]
        constructor
        · rintro ⟨h, hmin⟩
          refine ⟨h, fun j hj => ?_⟩
          cases j with
          | zero => simpa using hp
          | succ j => simpa using hmin j (by omega)
        · rintro ⟨h, hmin⟩
          exact ⟨h, fun j hj => by simpa using hmin (j + 1) (by omega)⟩

theorem strstr_eq_none_iff {needle hay : List α} (hn : needle ≠ []) :
    strstr needle hay = none ↔ ∀ j, ¬ needle <+: hay.drop j := by
  constructor
  · intro h j hj
    -- the least offset at which the needle occurs would have been reported
    classical
    have hex : ∃ j, needle <+: hay.drop j := ⟨j, hj⟩
    have := (strstr_eq_some_iff hn).mpr
      ⟨Nat.find_spec hex, fun k hk => Nat.find_min hex hk⟩
    simp [h] at this
  · intro h
    cases hs : strstr needle hay with
    | none => rfl
    | some i => exact absurd ((strstr_eq_some_iff hn).mp hs).1 (h i)

theorem strstr_isSome_iff {needle hay : List α} (hn : needle ≠ []) :
    (strstr needle hay).isSome = true ↔ needle <:+: hay := by
  rw [Option.isSome_iff_ne_none, ne_eq, strstr_eq_none_iff hn, not_forall,
    List.infix_iff_prefix_suffix]
  constructor
  · rintro ⟨j, hj⟩
    exact ⟨hay.drop j, not_not.mp hj, List.drop_suffix j hay⟩
  · rintro ⟨t, hprefix, hsuffix⟩
    rw [List.suffix_iff_eq_drop.mp hsuffix] at hprefix
    exact ⟨_, not_not_intro hprefix⟩

theorem strstr_isSome_of_infix {needle hay hay' : List α} (hn : needle ≠ [])
    (hsub : hay <:+: hay') (h : (strstr needle hay).isSome = true) :
    (strstr needle hay').isSome = true := by
  rw [strstr_isSome_iff hn] at h ⊢
  exact h.trans hsub

/-- The occurrence found lies within the text. -/
theorem strstr_le_length {needle hay : List α} {i : Nat} (hn : needle ≠ [])
    (h : strstr needle hay = some i) : i + needle.length ≤ hay.length := by
  have hpre := ((strstr_eq_some_iff hn).mp h).1
  have hlen := hpre.length_le
  have hpos := List.length_pos_iff.mpr hn
  simp only [List.length_drop] at hlen
  omega

omit [DecidableEq α] in
private theorem prefix_take_drop_iff {needle hay : List α} {n j : Nat} :
    needle <+: (hay.take n).drop j ↔
      needle <+: hay.drop j ∧ needle.length ≤ n - j := by
  rw [List.drop_take, List.prefix_take_iff]

/-- A prefix of the text that contains the first occurrence reports the same offset. -/
theorem strstr_take_of_le {needle hay : List α} {i n : Nat} (hn : needle ≠ [])
    (h : strstr needle hay = some i) (hle : i + needle.length ≤ n) :
    strstr needle (hay.take n) = some i := by
  have ⟨hpre, hmin⟩ := (strstr_eq_some_iff hn).mp h
  refine (strstr_eq_some_iff hn).mpr ⟨prefix_take_drop_iff.mpr ⟨hpre, by omega⟩, ?_⟩
  intro j hj hj'
  exact hmin j hj (prefix_take_drop_iff.mp hj').1

/-- What is found in a prefix is found at the same offset in the text. -/
theorem strstr_of_isPrefix {needle hay hay' : List α} {i : Nat} (hn : needle ≠ [])
    (hp : hay <+: hay') (h : strstr needle hay = some i) : strstr needle hay' = some i := by
  have hle := strstr_le_length hn h
  have ⟨hpre, hmin⟩ := (strstr_eq_some_iff hn).mp h
  rw [List.prefix_iff_eq_take.mp hp] at hpre hmin
  refine (strstr_eq_some_iff hn).mpr ⟨(prefix_take_drop_iff.mp hpre).1, ?_⟩
  intro j hj hj'
  apply hmin j hj
  exact prefix_take_drop_iff.mpr ⟨hj', by omega⟩

/-- A prefix of the text that ends inside the first occurrence contains none. -/
theorem strstr_take_of_lt {needle hay : List α} {i n : Nat} (hn : needle ≠ [])
    (h : strstr needle hay = some i) (hlt : n < i + needle.length) :
    strstr needle (hay.take n) = none := by
  have ⟨_, hmin⟩ := (strstr_eq_some_iff hn).mp h
  have hpos := List.length_pos_iff.mpr hn
  refine (strstr_eq_none_iff hn).mpr fun j hj => ?_
  have ⟨hpre, hle⟩ := prefix_take_drop_iff.mp hj
  exact hmin j (by omega) hpre

theorem strstr_take_of_none {needle hay : List α} (n : Nat) (hn : needle ≠ [])
    (h : strstr needle hay = none) : strstr needle (hay.take n) = none :=
  (strstr_eq_none_iff hn).mpr fun j hj =>
    (strstr_eq_none_iff hn).mp h j (prefix_take_drop_iff.mp hj).1

/-- A prefix without the needle's first letter is skipped. -/
theorem strstr_append_of_notMem {d : α} {needle' l : List α} (hd : d ∉ l) (t : List α) :
    strstr (d :: needle') (l ++ t) = (strstr (d :: needle') t).map (· + l.length) := by
  induction l with
  | nil => simp
  | cons c cs ih =>
    -- no occurrence starts at a letter of the prefix
    have hne : d ≠ c := fun h => hd (h ▸ List.mem_cons_self)
    have hnp : ¬ (d :: needle') <+: c :: (cs ++ t) := by
      rw [List.cons_prefix_cons]
      exact fun h => hne h.1
    rw [List.cons_append, strstr_cons_of_not_isPrefix hnp,
      ih (fun h => hd (List.mem_cons_of_mem _ h))]
    simp only [Option.map_map, List.length_cons]
    congr 1

end Search

/-! ## Character search -/

/-- `strchr`: the text from the first occurrence of `c` on. -/
def strchr (c : UInt8) : List UInt8 → Option (List UInt8)
  | [] => none
  | x :: xs => if x = c then some (x :: xs) else strchr c xs

/-- `strrchr`: the text from the last occurrence of `c` on. -/
def strrchr (c : UInt8) : List UInt8 → Option (List UInt8)
  | [] => none
  | x :: xs => (strrchr c xs).orElse fun _ => if x = c then some (x :: xs) else none

theorem strchr_append_cons {c : UInt8} {s : List UInt8} (h : c ∉ s) (t : List UInt8) :
    strchr c (s ++ c :: t) = some (c :: t) := by
  induction s with
  | nil => simp [strchr]
  | cons x xs ih =>
    have hx : x ≠ c := fun he => h (he ▸ List.mem_cons_self)
    simpa [strchr, hx] using ih fun hm => h (List.mem_cons_of_mem _ hm)

theorem strchr_eq_none {c : UInt8} {s : List UInt8} (h : c ∉ s) : strchr c s = none := by
  induction s with
  | nil => rfl
  | cons x xs ih =>
    have hx : x ≠ c := fun he => h (he ▸ List.mem_cons_self)
    simpa [strchr, hx] using ih fun hm => h (List.mem_cons_of_mem _ hm)

theorem strchr_isSome_iff {c : UInt8} {s : List UInt8} : (strchr c s).isSome ↔ c ∈ s := by
  constructor
  · intro hsome
    by_contra hn
    rw [strchr_eq_none hn] at hsome
    exact Bool.false_ne_true hsome
  · intro hmem
    obtain ⟨pre, post, rfl, hpre⟩ := List.eq_append_cons_of_mem hmem
    rw [strchr_append_cons hpre, Option.isSome_some]

/-- The search splits the string behind the letters in front of the first `c`. -/
theorem strchr_eq_some {c : UInt8} {s t : List UInt8} (h : strchr c s = some t) :
    ∃ after, t = c :: after ∧ s = s.takeWhile (· != c) ++ c :: after := by
  induction s with
  | nil => cases h
  | cons x xs ih =>
    rw [strchr] at h
    split at h
    · rename_i hx
      subst hx
      obtain rfl := Option.some.inj h
      exact ⟨xs, rfl, by simp⟩
    · rename_i hx
      obtain ⟨after, rfl, hxs⟩ := ih h
      refine ⟨after, rfl, ?_⟩
      rw [List.takeWhile_cons_of_pos (by simpa using hx), List.cons_append, ← hxs]

theorem strrchr_eq_none_iff {c : UInt8} {s : List UInt8} : strrchr c s = none ↔ c ∉ s := by
  induction s with
  | nil => simp [strrchr]
  | cons x xs ih =>
    cases hs : strrchr c xs with
    | none => simp [strrchr, hs, ih.mp hs, eq_comm]
    | some t =>
      have hmem : c ∈ xs := by
        by_contra hn
        simp [ih.mpr hn] at hs
      simp [strrchr, hs, hmem]

/-- What stands in front without the character does not count. -/
theorem strrchr_append_of_notMem {c : UInt8} {front : List UInt8} (h : c ∉ front)
    (s : List UInt8) : strrchr c (front ++ s) = strrchr c s := by
  induction front with
  | nil => rfl
  | cons x xs ih =>
    obtain ⟨hx, hxs⟩ := not_or.mp (mt List.mem_cons.mpr h)
    have hne : ¬ x = c := fun heq => hx heq.symm
    rw [List.cons_append, strrchr, ih hxs, if_neg hne]
    cases strrchr c s <;> rfl

/-! ## Tokenisation -/

/-- A token of `strtok` with the text behind the delimiter that was overwritten by NUL;
there is none when the string itself ended the token. -/
structure Token where
  text : List UInt8
  tail : Option (List UInt8)
  deriving DecidableEq, Repr

/-- One call of `strtok`: skip delimiters, then cut at the next one. -/
def strtok (delims s : List UInt8) : Option Token :=
  match s.dropWhile (· ∈ delims) with
  -- nothing is left but delimiters
  | [] => none
  | c :: cs =>
    some {
      text := (c :: cs).takeWhile (fun c => !decide (c ∈ delims))
      tail := ((c :: cs).dropWhile (fun c => !decide (c ∈ delims))).tail? }

/-- The tokens that a loop of `strtok(NULL, delims)` calls yields, with `fuel` calls at most. -/
def tokensFuel (delims : List UInt8) : Nat → List UInt8 → List Token
  | 0, _ => []
  | fuel + 1, s =>
    match strtok delims s with
    | none => []
    | some tok => tok :: (tok.tail.elim [] (tokensFuel delims fuel))

/-- All tokens of a string: every call of `strtok` consumes at least one byte. -/
def tokens (delims s : List UInt8) : List Token := tokensFuel delims s.length s

theorem strtok_cons_delim {delims : List UInt8} {d : UInt8} (hd : d ∈ delims)
    (s : List UInt8) : strtok delims (d :: s) = strtok delims s := by
  simp [strtok, hd]

/-- A line that is followed by a delimiter is the first token. -/
theorem strtok_line {delims l : List UInt8} {d : UInt8} (hl : l ≠ [])
    (hnd : ∀ c ∈ l, c ∉ delims) (hd : d ∈ delims) (s : List UInt8) :
    strtok delims (l ++ d :: s) = some ⟨l, some s⟩ := by
  obtain ⟨c, cs, rfl⟩ := List.exists_cons_of_ne_nil hl
  have hc : c ∉ delims := hnd c List.mem_cons_self
  have htake : (c :: cs ++ d :: s).takeWhile (fun c => !decide (c ∈ delims)) = c :: cs := by
    rw [List.takeWhile_append_of_pos (by simpa using hnd)]
    simp [hd]
  have hdrop : (c :: cs ++ d :: s).dropWhile (fun c => !decide (c ∈ delims)) = d :: s := by
    rw [List.dropWhile_append_of_pos (by simpa using hnd)]
    simp [hd]
  simp only [List.cons_append] at htake hdrop ⊢
  simp [strtok, hc, htake, hdrop]

theorem strtok_tail_length {delims s t : List UInt8} {tok : Token}
    (h : strtok delims s = some tok) (ht : tok.tail = some t) : t.length < s.length := by
  unfold strtok at h
  split at h
  · cases h
  · rename_i c cs hs
    cases h
    have hsuf : c :: cs <:+ s := hs ▸ List.dropWhile_suffix _
    have hlen := hsuf.length_le
    -- the delimiter that was overwritten is not part of the tail
    have hd : t.length + 1 ≤ ((c :: cs).dropWhile (fun c => !decide (c ∈ delims))).length := by
      cases hx : (c :: cs).dropWhile (fun c => !decide (c ∈ delims)) with
      | nil => simp [hx] at ht
      | cons x xs =>
        simp only [hx, List.tail?_cons, Option.some.injEq] at ht
        simp [ht]
    have hle := ((c :: cs).dropWhile_suffix (fun c => !decide (c ∈ delims))).length_le
    omega

/-- A token and what is behind it stand at the end of the string. -/
theorem strtok_split {delims s : List UInt8} {tok : Token} (h : strtok delims s = some tok) :
    ∃ pre post, s = pre ++ tok.text ++ post ∧ tok.tail = post.tail? := by
  unfold strtok at h
  split at h
  · cases h
  · rename_i c cs hs
    cases h
    refine ⟨s.takeWhile (· ∈ delims), (c :: cs).dropWhile fun c => !decide (c ∈ delims), ?_, rfl⟩
    rw [List.append_assoc, List.takeWhile_append_dropWhile, ← hs,
      List.takeWhile_append_dropWhile]

theorem mem_tokensFuel_split {delims : List UInt8} {fuel : Nat} {s : List UInt8} {tok : Token}
    (h : tok ∈ tokensFuel delims fuel s) :
    ∃ pre post, s = pre ++ tok.text ++ post ∧ tok.tail = post.tail? := by
  induction fuel generalizing s with
  | zero => exact absurd h List.not_mem_nil
  | succ fuel ih =>
    rw [tokensFuel] at h
    cases hs : strtok delims s with
    | none =>
      rw [hs] at h
      exact absurd h List.not_mem_nil
    | some first =>
      rw [hs, List.mem_cons] at h
      obtain ⟨pre, post, hsplit, htail⟩ := strtok_split hs
      rcases h with rfl | hmem
      · exact ⟨pre, post, hsplit, htail⟩
      · -- a later token stands in the tail of the first one
        cases post with
        | nil =>
          rw [htail] at hmem
          exact absurd hmem List.not_mem_nil
        | cons d rest =>
          rw [htail] at hmem
          obtain ⟨pre', post', hrest, htail'⟩ := ih hmem
          refine ⟨pre ++ first.text ++ d :: pre', post', ?_, htail'⟩
          rw [hsplit, hrest]
          simp only [List.append_assoc, List.cons_append]

/-- Every token is a part of the string, and the tail is what stands behind its delimiter. -/
theorem mem_tokens_split {delims s : List UInt8} {tok : Token} (h : tok ∈ tokens delims s) :
    ∃ pre post, s = pre ++ tok.text ++ post ∧ tok.tail = post.tail? :=
  mem_tokensFuel_split h

/-- Enough fuel gives all tokens. -/
theorem tokensFuel_eq (delims : List UInt8) {fuel : Nat} (s : List UInt8)
    (h : s.length ≤ fuel) : tokensFuel delims fuel s = tokens delims s := by
  unfold tokens
  -- two amounts of fuel that are both enough give the same tokens
  suffices ∀ n m (s : List UInt8), s.length ≤ n → s.length ≤ m →
      tokensFuel delims n s = tokensFuel delims m s from this _ _ _ h le_rfl
  intro n
  induction n with
  | zero =>
    intro m s hn _
    obtain rfl := List.length_eq_zero_iff.mp (Nat.le_zero.mp hn)
    cases m <;> simp [tokensFuel, strtok]
  | succ n ih =>
    intro m s hn hm
    cases m with
    | zero =>
      obtain rfl := List.length_eq_zero_iff.mp (Nat.le_zero.mp hm)
      simp [tokensFuel, strtok]
    | succ m =>
      simp only [tokensFuel]
      cases hs : strtok delims s with
      | none => rfl
      | some tok =>
        cases ht : tok.tail with
        | none => simp [ht]
        | some t =>
          have := strtok_tail_length hs ht
          simp [ht, ih m t (by omega) (by omega)]

theorem tokens_cons_delim {delims : List UInt8} {d : UInt8} (hd : d ∈ delims)
    (s : List UInt8) : tokens delims (d :: s) = tokens delims s := by
  rw [← tokensFuel_eq delims s (Nat.le_succ s.length)]
  simp only [tokens, List.length_cons, tokensFuel, strtok_cons_delim hd]

theorem tokens_line {delims l : List UInt8} {d : UInt8} (hl : l ≠ [])
    (hnd : ∀ c ∈ l, c ∉ delims) (hd : d ∈ delims) (s : List UInt8) :
    tokens delims (l ++ d :: s) = ⟨l, some s⟩ :: tokens delims s := by
  have hlen : (l ++ d :: s).length = (l.length + s.length) + 1 := by
    simp only [List.length_append, List.length_cons]; omega
  simp only [tokens, hlen, tokensFuel, strtok_line hl hnd hd, Option.elim_some]
  rw [tokensFuel_eq delims s (by omega), tokens]

/-! ## The `%s` conversion -/

/-- The words stored by a `sscanf` format of `n` conversions `%s`: each skips white
space and takes the bytes up to the next white space; the first that finds none stops. -/
def scanWords : Nat → List UInt8 → List (List UInt8)
  | 0, _ => []
  | n + 1, s =>
    match s.dropWhile isspace with
    -- input failure: the conversions left over store nothing
    | [] => []
    | c :: cs => (c :: cs).takeWhile (! isspace ·) ::
        scanWords n ((c :: cs).dropWhile (! isspace ·))

theorem scanWords_word {w : List UInt8} (hw : w ≠ []) (hns : ∀ c ∈ w, isspace c = false)
    (n : Nat) (s : List UInt8) :
    scanWords (n + 1) (w ++ 32 :: s) = w :: scanWords n (32 :: s) := by
  obtain ⟨c, cs, rfl⟩ := List.exists_cons_of_ne_nil hw
  have hc : isspace c = false := hns c List.mem_cons_self
  have htake : (c :: cs ++ 32 :: s).takeWhile (! isspace ·) = c :: cs := by
    rw [List.takeWhile_append_of_pos (by simpa using hns)]
    simp [isspace]
  have hdrop : (c :: cs ++ 32 :: s).dropWhile (! isspace ·) = 32 :: s := by
    rw [List.dropWhile_append_of_pos (by simpa using hns)]
    simp [isspace]
  simp only [List.cons_append] at htake hdrop ⊢
  simp [scanWords, hc, htake, hdrop]

theorem scanWords_last {w : List UInt8} (hw : w ≠ []) (hns : ∀ c ∈ w, isspace c = false)
    (n : Nat) : scanWords (n + 1) w = [w] := by
  obtain ⟨c, cs, rfl⟩ := List.exists_cons_of_ne_nil hw
  have hc : isspace c = false := hns c List.mem_cons_self
  have htake : (c :: cs).takeWhile (! isspace ·) = c :: cs :=
    List.takeWhile_eq_self_iff.mpr (by simpa using hns)
  have hdrop : (c :: cs).dropWhile (! isspace ·) = [] :=
    List.dropWhile_eq_nil_iff.mpr (by simpa using hns)
  cases n <;> simp [scanWords, hc, htake, hdrop]

theorem scanWords_skip (n : Nat) (s : List UInt8) : scanWords n (32 :: s) = scanWords n s := by
  cases n with
  | zero => rfl
  | succ n => simp [scanWords, isspace]

/-! ## Words -/

/-- The words of a text: what stands between white space. -/
def words (s : List UInt8) : List (List UInt8) := (s.splitOnP isspace).filter (· ≠ [])

@[simp] theorem words_nil : words [] = [] := by decide

theorem words_cons_space {c : UInt8} (hc : isspace c = true) (s : List UInt8) :
    words (c :: s) = words s := by
  rw [words, words, ← List.nil_append (c :: s), List.splitOnP_append_cons _ _ hc]
  simp

/-- White space in front of a text is skipped. -/
theorem words_dropWhile (s : List UInt8) : words (s.dropWhile isspace) = words s := by
  induction s with
  | nil => rfl
  | cons c s ih =>
    cases hc : isspace c with
    | true => rw [List.dropWhile_cons_of_pos hc, words_cons_space hc, ih]
    | false => rw [List.dropWhile_cons_of_neg (by simp [hc])]

/-- A word is followed by the words behind it. -/
theorem words_cons {c : UInt8} (hc : isspace c = false) (cs : List UInt8) :
    words (c :: cs) = (c :: cs).takeWhile (! isspace ·) ::
      words ((c :: cs).dropWhile (! isspace ·)) := by
  have hne : (c :: cs).takeWhile (! isspace ·) ≠ [] := by simp [hc]
  have hns : ∀ x ∈ (c :: cs).takeWhile (! isspace ·), isspace x = false := by
    intro x hx
    simpa using List.mem_takeWhile_imp hx
  generalize hw : (c :: cs).takeWhile (! isspace ·) = w at hne hns
  have hsplit : c :: cs = w ++ (c :: cs).dropWhile (! isspace ·) := by
    rw [← hw, List.takeWhile_append_dropWhile]
  cases hr : (c :: cs).dropWhile (! isspace ·) with
  | nil =>
    rw [hr, List.append_nil] at hsplit
    rw [hsplit, words, List.splitOnP_eq_singleton hns]
    simp [hne]
  | cons d ds =>
    have hd : isspace d = true := by
      have hhead := List.head_dropWhile_not (! isspace ·) (l := c :: cs) (by simp [hr])
      simpa [hr] using hhead
    rw [hr] at hsplit
    rw [hsplit, words_cons_space hd, words,
      List.splitOnP_append_cons_of_forall_mem hns d hd, List.filter_cons_of_pos (by simp [hne]),
      words]

/-- `sscanf` stores the first words. -/
theorem scanWords_eq (n : Nat) (s : List UInt8) : scanWords n s = (words s).take n := by
  induction n generalizing s with
  | zero => rfl
  | succ n ih =>
    rw [scanWords, ← words_dropWhile s]
    cases hs : s.dropWhile isspace with
    | nil => rfl
    | cons c cs =>
      have hc : isspace c = false := by
        have hhead := List.head_dropWhile_not isspace (l := s) (by simp [hs])
        simpa [hs] using hhead
      simp only [words_cons hc, List.take_succ_cons, ih]

end CLib
