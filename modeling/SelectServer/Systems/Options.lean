import Mathlib.Data.List.Basic
import Mathlib.Data.List.Induction
import Mathlib.Data.List.Nodup

/-!
# Options on a command line

A command line is read from left to right as settings: the name of an option and, in the next
word, its value, whatever that looks like. A word that asks for something else, such as the
help, ends the reading, and so does a word that is not the name of an option with a value
behind it, or a value that its option does not take.

Where every option has a name of its own (`Separate`), the reading succeeds exactly on lines of
settings that are all taken (`Separate.done_iff`), and a field has the last value of its option
(`IsField.get_foldl`). An array that is too short for a value makes the program undefined,
exactly where such a value comes behind settings that are taken (`Separate.fault_iff`).
-/

namespace Systems

variable {α β σ : Type*} [DecidableEq α]

/-- What an option makes of a value. -/
inductive Check
  | taken
  | refused
  | fault
  deriving DecidableEq

/-- An option: its name, which values it takes, and where it puts them. -/
structure CommandOption (α σ : Type*) where
  name : α
  check : α → Check
  set : α → σ → σ

/-- How the reading of a command line ends: with the settings in place, at a word that asks for
something else, at a word that is refused, or in undefined behaviour. -/
inductive Parsed (σ : Type*)
  | done (s : σ)
  | shown
  | refused
  | fault
  deriving DecidableEq

/-- What becomes of a setting; an option that does not exist is refused. -/
def checkSetting (options : List (CommandOption α σ)) (p : α × α) : Check :=
  match options.find? fun o => o.name = p.1 with
  | none => .refused
  | some o => o.check p.2

/-- A setting is put in place. -/
def assign (options : List (CommandOption α σ)) (s : σ) (p : α × α) : σ :=
  match options.find? fun o => o.name = p.1 with
  | none => s
  | some o => o.set p.2 s

/-- The reading of a command line; the words of `stops` end it. -/
def parseOptions (stops : List α) (options : List (CommandOption α σ)) : σ → List α → Parsed σ
  | s, [] => .done s
  | _, [arg] => if arg ∈ stops then .shown else .refused
  | s, arg :: value :: rest =>
    if arg ∈ stops then .shown
    else
      match checkSetting options (arg, value) with
      | .taken => parseOptions stops options (assign options s (arg, value)) rest
      | .refused => .refused
      | .fault => .fault

/-- The words of settings. -/
def settingWords (settings : List (α × α)) : List α := settings.flatMap fun p => [p.1, p.2]

/-- A setting that the reading goes on behind. -/
def Taken (stops : List α) (options : List (CommandOption α σ)) (p : α × α) : Prop :=
  p.1 ∉ stops ∧ checkSetting options p = .taken

/-- What the settings of an option leave of a field: the last value that `read` reads, or what
was there before. -/
def lastSetting (read : α → Option β) (name : α) (default : β) (settings : List (α × α)) : β :=
  settings.foldl (fun v p => if p.1 = name then (read p.2).getD v else v) default

/-- A field has its default or a value of its option. -/
theorem lastSetting_cases (read : α → Option β) (name : α) (default : β)
    (settings : List (α × α)) :
    lastSetting read name default settings = default ∨
      ∃ p ∈ settings, p.1 = name ∧ read p.2 = some (lastSetting read name default settings) := by
  induction settings generalizing default with
  | nil => exact Or.inl rfl
  | cons p settings ih =>
    have hcons : lastSetting read name default (p :: settings) =
        lastSetting read name (if p.1 = name then (read p.2).getD default else default)
          settings := rfl
    rw [hcons]
    rcases ih (if p.1 = name then (read p.2).getD default else default) with hhead | ⟨q, hq, h⟩
    · rw [hhead]
      by_cases hname : p.1 = name
      · rw [if_pos hname]
        cases hread : read p.2 with
        | none => exact Or.inl rfl
        | some v => exact Or.inr ⟨p, List.mem_cons_self, hname, hread⟩
      · exact Or.inl (if_neg hname)
    · exact Or.inr ⟨q, List.mem_cons_of_mem p hq, h⟩

/-- A field that one option sets, and no other. -/
structure IsField (options : List (CommandOption α σ)) (get : σ → β) (name : α)
    (read : α → Option β) : Prop where
  named : name ∈ options.map CommandOption.name
  set : options.Forall fun o => ∀ v s,
    get (o.set v s) = if o.name = name then (read v).getD (get s) else get s

/-- Behind settings a field has the value of the last one of its option. -/
theorem IsField.get_foldl {options : List (CommandOption α σ)} {get : σ → β} {name : α}
    {read : α → Option β} (h : IsField options get name read) (settings : List (α × α)) (s : σ) :
    get (settings.foldl (assign options) s) = lastSetting read name (get s) settings := by
  induction settings generalizing s with
  | nil => rfl
  | cons p settings ih =>
    have hset : get (assign options s p) =
        if p.1 = name then (read p.2).getD (get s) else get s := by
      unfold assign
      cases hfind : options.find? fun o => o.name = p.1 with
      | none =>
        obtain ⟨o, ho, hname⟩ := List.mem_map.mp h.named
        have hne := List.find?_eq_none.mp hfind o ho
        rw [hname] at hne
        exact (if_neg fun heq => hne (decide_eq_true heq.symm)).symm
      | some o =>
        have hname : o.name = p.1 := by simpa using List.find?_some hfind
        rw [← hname]
        exact List.forall_iff_forall_mem.mp h.set o (List.mem_of_find?_eq_some hfind) p.2 s
    rw [List.foldl_cons, ih, hset]
    rfl

section Reading

variable {stops : List α} {options : List (CommandOption α σ)} {s s' : σ}

/-- The reading goes on behind settings that are taken. -/
theorem parseOptions_append {settings : List (α × α)}
    (h : ∀ p ∈ settings, Taken stops options p) (s : σ) (rest : List α) :
    parseOptions stops options s (settingWords settings ++ rest) =
      parseOptions stops options (settings.foldl (assign options) s) rest := by
  induction settings generalizing s with
  | nil => rfl
  | cons p settings ih =>
    obtain ⟨hstop, htaken⟩ := h p List.mem_cons_self
    have hwords : settingWords (p :: settings) ++ rest =
        p.1 :: p.2 :: (settingWords settings ++ rest) := rfl
    rw [hwords, parseOptions, if_neg hstop, htaken, List.foldl_cons]
    exact ih (fun q hq => h q (List.mem_cons_of_mem p hq)) _

/-- Every line begins with settings that are taken, and behind them there is none. -/
theorem exists_settings (stops : List α) (options : List (CommandOption α σ)) (args : List α) :
    ∃ settings rest, args = settingWords settings ++ rest ∧
      (∀ p ∈ settings, Taken stops options p) ∧
      ∀ arg value rest', rest = arg :: value :: rest' → ¬ Taken stops options (arg, value) := by
  induction args using List.twoStepInduction with
  | nil => exact ⟨[], [], rfl, by simp, by simp⟩
  | singleton arg => exact ⟨[], [arg], rfl, by simp, by simp⟩
  | cons_cons arg value rest ih _ =>
    by_cases htaken : Taken stops options (arg, value)
    · obtain ⟨settings, rest', rfl, hsettings, hrest⟩ := ih
      exact ⟨(arg, value) :: settings, rest', rfl,
        List.forall_mem_cons.mpr ⟨htaken, hsettings⟩, hrest⟩
    · refine ⟨[], arg :: value :: rest, rfl, by simp, ?_⟩
      intro arg' value' rest' heq
      simp only [List.cons.injEq] at heq
      obtain ⟨rfl, rfl, -⟩ := heq
      exact htaken

/-- What a reading does with words that do not begin with a setting that is taken. -/
theorem parseOptions_of_not_taken (s' : σ) {args : List α} (hne : args ≠ [])
    (h : ∀ arg value rest, args = arg :: value :: rest → ¬ Taken stops options (arg, value)) :
    parseOptions stops options s args ≠ .done s' ∧
      (parseOptions stops options s args = .fault ↔ ∃ arg value rest,
        args = arg :: value :: rest ∧ arg ∉ stops ∧
          checkSetting options (arg, value) = .fault) := by
  match args with
  | [] => exact absurd rfl hne
  | [arg] =>
    rw [parseOptions]
    split <;> simp
  | arg :: value :: rest =>
    have hnot := h arg value rest rfl
    rw [parseOptions]
    by_cases hstop : arg ∈ stops
    · simp [hstop]
    · have hcheck : checkSetting options (arg, value) ≠ .taken := fun ht => hnot ⟨hstop, ht⟩
      rw [if_neg hstop]
      cases hset : checkSetting options (arg, value) with
      | taken => exact absurd hset hcheck
      | refused => simp [hset]
      | fault => simp [hset, hstop]

/-- A line is read to its end exactly if it is settings that are all taken. -/
theorem parseOptions_done_iff {args : List α} :
    parseOptions stops options s args = .done s' ↔
      ∃ settings, args = settingWords settings ∧ (∀ p ∈ settings, Taken stops options p) ∧
        s' = settings.foldl (assign options) s := by
  constructor
  · intro hdone
    obtain ⟨settings, rest, rfl, hsettings, hrest⟩ := exists_settings stops options args
    rw [parseOptions_append hsettings] at hdone
    by_cases hnil : rest = []
    · subst hnil
      rw [parseOptions, Parsed.done.injEq] at hdone
      exact ⟨settings, List.append_nil _, hsettings, hdone.symm⟩
    · exact absurd hdone (parseOptions_of_not_taken s' hnil hrest).1
  · rintro ⟨settings, rfl, hsettings, rfl⟩
    have hread := parseOptions_append hsettings s []
    rwa [List.append_nil] at hread

/-- A reading is undefined exactly if a value that does not fit comes behind settings that are
all taken. -/
theorem parseOptions_fault_iff {args : List α} :
    parseOptions stops options s args = .fault ↔
      ∃ settings arg value rest, args = settingWords settings ++ arg :: value :: rest ∧
        (∀ p ∈ settings, Taken stops options p) ∧ arg ∉ stops ∧
        checkSetting options (arg, value) = .fault := by
  constructor
  · intro hfault
    obtain ⟨settings, rest, rfl, hsettings, hrest⟩ := exists_settings stops options args
    rw [parseOptions_append hsettings] at hfault
    have hnil : rest ≠ [] := by
      rintro rfl
      cases hfault
    obtain ⟨arg, value, rest', rfl, hstop, hcheck⟩ :=
      (parseOptions_of_not_taken s hnil hrest).2.mp hfault
    exact ⟨settings, arg, value, rest', rfl, hsettings, hstop, hcheck⟩
  · rintro ⟨settings, arg, value, rest, rfl, hsettings, hstop, hcheck⟩
    rw [parseOptions_append hsettings, parseOptions, if_neg hstop, hcheck]

/-! ### Options with different names -/

/-- The names of the options differ from each other and from the words that end the reading. -/
structure Separate (stops : List α) (options : List (CommandOption α σ)) : Prop where
  nodup : (options.map CommandOption.name).Nodup
  disjoint : ∀ name ∈ options.map CommandOption.name, name ∉ stops

/-- An option makes this of a setting. -/
def Checks (options : List (CommandOption α σ)) (c : Check) (p : α × α) : Prop :=
  ∃ o ∈ options, o.name = p.1 ∧ o.check p.2 = c

theorem Separate.checkSetting_iff (h : Separate stops options) {c : Check} (hc : c ≠ .refused)
    (p : α × α) : checkSetting options p = c ↔ Checks options c p := by
  unfold checkSetting Checks
  cases hfind : options.find? fun o => o.name = p.1 with
  | none =>
    refine iff_of_false (Ne.symm hc) ?_
    rintro ⟨o, ho, hname, -⟩
    exact List.find?_eq_none.mp hfind o ho (decide_eq_true hname)
  | some o =>
    have hmem := List.mem_of_find?_eq_some hfind
    have hname : o.name = p.1 := by simpa using List.find?_some hfind
    constructor
    · exact fun hcheck => ⟨o, hmem, hname, hcheck⟩
    · rintro ⟨o', ho', hname', hcheck⟩
      rwa [List.inj_on_of_nodup_map h.nodup hmem ho' (hname.trans hname'.symm)]

theorem Separate.taken_iff (h : Separate stops options) (p : α × α) :
    Taken stops options p ↔ Checks options .taken p := by
  rw [Taken, h.checkSetting_iff (by decide)]
  refine and_iff_right_of_imp ?_
  rintro ⟨o, ho, hname, -⟩
  exact hname ▸ h.disjoint o.name (List.mem_map_of_mem ho)

theorem Separate.done_iff (h : Separate stops options) {args : List α} :
    parseOptions stops options s args = .done s' ↔
      ∃ settings, args = settingWords settings ∧ (∀ p ∈ settings, Checks options .taken p) ∧
        s' = settings.foldl (assign options) s := by
  simp only [parseOptions_done_iff, h.taken_iff]

theorem Separate.fault_iff (h : Separate stops options) {args : List α} :
    parseOptions stops options s args = .fault ↔
      ∃ settings p rest, args = settingWords settings ++ settingWords [p] ++ rest ∧
        (∀ p ∈ settings, Checks options .taken p) ∧ Checks options .fault p := by
  simp only [parseOptions_fault_iff, h.taken_iff]
  constructor
  · rintro ⟨settings, arg, value, rest, rfl, hsettings, -, hcheck⟩
    refine ⟨settings, (arg, value), rest, ?_, hsettings,
      (h.checkSetting_iff (by decide) _).mp hcheck⟩
    rw [List.append_assoc]
    rfl
  · rintro ⟨settings, p, rest, rfl, hsettings, hcheck⟩
    refine ⟨settings, p.1, p.2, rest, ?_, hsettings, ?_,
      (h.checkSetting_iff (by decide) _).mpr hcheck⟩
    · rw [List.append_assoc]
      rfl
    · obtain ⟨o, ho, hname, -⟩ := hcheck
      exact hname ▸ h.disjoint o.name (List.mem_map_of_mem ho)

/-- What every value has that an option takes, and the default, a field has. -/
theorem Separate.lastSetting_of_taken {P : β → Prop} (h : Separate stops options)
    {o : CommandOption α σ} (ho : o ∈ options) {read : α → Option β} {default : β}
    (hdefault : P default) (hread : ∀ v b, o.check v = .taken → read v = some b → P b)
    {settings : List (α × α)} (hsettings : ∀ p ∈ settings, Checks options .taken p) :
    P (lastSetting read o.name default settings) := by
  rcases lastSetting_cases read o.name default settings with heq | ⟨p, hp, hname, heq⟩
  · rwa [heq]
  · obtain ⟨o', ho', hname', hcheck⟩ := hsettings p hp
    obtain rfl := List.inj_on_of_nodup_map h.nodup ho ho' (hname.symm.trans hname'.symm)
    exact hread p.2 _ hcheck heq

end Reading

end Systems
