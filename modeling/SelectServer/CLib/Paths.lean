import Mathlib.Data.List.Basic
import Mathlib.Tactic.Cases
import SelectServer.CLib.Strings

/-!
# Lexical normalisation of relative paths

A path is a list of segments: empty ones and `.` do nothing, `..` removes the name before
it, and where there is none it climbs out of the starting directory. The normal form is a
number of climbs followed by names.

`walk_below_iff` says which segments, appended to a folder, end inside it: by counting, on
the prefixes of the segments, how many `..` there are and how many names.
-/

namespace CLib

/-! ## Segments -/

/-- A segment of a path over names of any type. -/
inductive Segment (α : Type*)
  | skip
  | up
  | name (a : α)
  deriving DecidableEq, Repr

/-- A normal form: how often it climbs, and its names, the last one first. -/
structure NormalPath (α : Type*) where
  ups : Nat
  names : List α
  deriving DecidableEq, Repr

section Generic

variable {α : Type*}

/-- Append a segment to a normal form. -/
def NormalPath.step (p : NormalPath α) : Segment α → NormalPath α
  | .skip => p
  | .name a => ⟨p.ups, a :: p.names⟩
  | .up =>
    match p.names with
    -- nothing is left to remove
    | [] => ⟨p.ups + 1, []⟩
    | _ :: names => ⟨p.ups, names⟩

/-- Append segments to a normal form. -/
def NormalPath.walk (p : NormalPath α) (segs : List (Segment α)) : NormalPath α :=
  segs.foldl NormalPath.step p

/-- A normal form whose first name is `folder`, without climbing before it. -/
def NormalPath.Below (folder : α) (p : NormalPath α) : Prop :=
  p.ups = 0 ∧ p.names.getLast? = some folder

instance [DecidableEq α] (folder : α) (p : NormalPath α) : Decidable (p.Below folder) :=
  inferInstanceAs (Decidable (_ ∧ _))

def Segment.isUp : Segment α → Bool
  | .up => true
  | _ => false

def Segment.isName : Segment α → Bool
  | .name _ => true
  | _ => false

/-- The number of `..` among segments. -/
def upCount (segs : List (Segment α)) : Nat := segs.countP Segment.isUp

/-- The number of names among segments. -/
def nameCount (segs : List (Segment α)) : Nat := segs.countP Segment.isName

/-- No prefix of the segments has more than `k` names too few for its `..`. -/
def Climbs (k : Nat) (segs : List (Segment α)) : Prop :=
  ∀ p, p <+: segs → upCount p ≤ nameCount p + k

/-- The segments never climb above the directory they start in; or they climb to its parent
and no further, name the directory again, and stay in it. -/
def StaysInside (folder : α) (segs : List (Segment α)) : Prop :=
  Climbs 0 segs ∨ ∃ p q, segs = p ++ .name folder :: q ∧
    (Climbs 1 p ∧ upCount p = nameCount p + 1) ∧ Climbs 0 q

/-! ## Counting along a walk -/

@[simp] theorem NormalPath.walk_nil (p : NormalPath α) : p.walk [] = p := rfl

theorem NormalPath.walk_append (p : NormalPath α) (xs ys : List (Segment α)) :
    p.walk (xs ++ ys) = (p.walk xs).walk ys :=
  List.foldl_append

@[simp] theorem NormalPath.walk_cons (p : NormalPath α) (s : Segment α)
    (segs : List (Segment α)) : p.walk (s :: segs) = (p.step s).walk segs := rfl

theorem NormalPath.walk_concat (p : NormalPath α) (segs : List (Segment α)) (s : Segment α) :
    p.walk (segs ++ [s]) = (p.walk segs).step s := by
  rw [NormalPath.walk_append, NormalPath.walk_cons, NormalPath.walk_nil]

@[simp] theorem upCount_concat (segs : List (Segment α)) (s : Segment α) :
    upCount (segs ++ [s]) = upCount segs + if s.isUp then 1 else 0 := by
  simp [upCount, List.countP_append, List.countP_singleton]

@[simp] theorem nameCount_concat (segs : List (Segment α)) (s : Segment α) :
    nameCount (segs ++ [s]) = nameCount segs + if s.isName then 1 else 0 := by
  simp [nameCount, List.countP_append, List.countP_singleton]

theorem climbs_nil (k : Nat) : Climbs k ([] : List (Segment α)) := by
  intro p hp
  simp [List.prefix_nil.mp hp, upCount]

/-- One more segment adds one more prefix; only a `..` can be one too many. -/
theorem climbs_concat {k : Nat} {segs : List (Segment α)} {s : Segment α} :
    Climbs k (segs ++ [s]) ↔
      Climbs k segs ∧ (s = .up → upCount segs < nameCount segs + k) := by
  have hlast : upCount segs ≤ nameCount segs + k →
      (upCount (segs ++ [s]) ≤ nameCount (segs ++ [s]) + k ↔
        (s = .up → upCount segs < nameCount segs + k)) := by
    intro h
    cases s with
    | skip => simpa [Segment.isUp, Segment.isName] using h
    | up =>
      simp only [upCount_concat, nameCount_concat, Segment.isUp, Segment.isName,
        Bool.false_eq_true, if_false, if_true, true_implies]
      omega
    | name a =>
      simp only [upCount_concat, nameCount_concat, Segment.isUp, Segment.isName,
        Bool.false_eq_true, if_false, if_true, reduceCtorEq, false_implies, iff_true]
      omega
  constructor
  · intro h
    have hsegs : Climbs k segs := fun p hp => h p (hp.trans (List.prefix_append _ _))
    exact ⟨hsegs, (hlast (hsegs _ List.prefix_rfl)).mp (h _ List.prefix_rfl)⟩
  · -- a prefix of the longer list is the list itself or a prefix of the shorter one
    rintro ⟨h, hup⟩ p hp
    rcases List.prefix_concat_iff.mp hp with rfl | hp
    · exact (hlast (h _ List.prefix_rfl)).mpr hup
    · exact h p hp

/-- A walk from `b` that does not climb past it keeps its climbs, changes only what is on
top of `b`, and ends at the height the counts say. -/
theorem NormalPath.walk_of_climbs {u : Nat} {t b : List α} {segs : List (Segment α)}
    (h : Climbs t.length segs) :
    ∃ t', NormalPath.walk ⟨u, t ++ b⟩ segs = ⟨u, t' ++ b⟩ ∧
      t'.length + upCount segs = t.length + nameCount segs := by
  induction segs using List.reverseRecOn with
  | nil => exact ⟨t, rfl, by simp [upCount, nameCount]⟩
  | append_singleton segs s ih =>
    obtain ⟨h, hup⟩ := climbs_concat.mp h
    obtain ⟨top', hwalk, hcount⟩ := ih h
    rw [NormalPath.walk_concat, hwalk, upCount_concat, nameCount_concat]
    cases s with
    | skip => exact ⟨top', rfl, by simpa [Segment.isUp, Segment.isName] using hcount⟩
    | name a =>
      refine ⟨a :: top', rfl, ?_⟩
      simp only [Segment.isUp, Segment.isName, List.length_cons, Bool.false_eq_true, if_false,
        if_true]
      omega
    | up =>
      have hlt := hup rfl
      -- the counts leave at least one name on top of the base
      cases top' with
      | nil =>
        rw [List.length_nil] at hcount
        omega
      | cons a top' =>
        refine ⟨top', rfl, ?_⟩
        simp only [Segment.isUp, Segment.isName, List.length_cons, Bool.false_eq_true, if_false,
          if_true] at hcount ⊢
        omega

/-- A walk that ends without a climb has not climbed past its base. -/
theorem NormalPath.climbs_of_walk {base : List α} {segs : List (Segment α)}
    (h : (NormalPath.walk ⟨0, base⟩ segs).ups = 0) : Climbs base.length segs := by
  induction segs using List.reverseRecOn with
  | nil => exact climbs_nil _
  | append_singleton segs s ih =>
    rw [NormalPath.walk_concat] at h
    have hups : (NormalPath.walk ⟨0, base⟩ segs).ups = 0 := by
      cases s with
      | skip => exact h
      | name a => exact h
      | up =>
        simp only [NormalPath.step] at h
        split at h
        · simp at h
        · exact h
    have hclimbs := ih hups
    refine climbs_concat.mpr ⟨hclimbs, ?_⟩
    rintro rfl
    -- the last step did not climb, so there was a name to remove
    obtain ⟨top', hwalk, hcount⟩ := NormalPath.walk_of_climbs (u := 0) (b := []) hclimbs
    rw [List.append_nil, List.append_nil] at hwalk
    rw [hwalk] at h
    cases top' with
    | nil => simp [NormalPath.step] at h
    | cons a top' =>
      rw [List.length_cons] at hcount
      omega

/-! ## Staying inside a folder -/

private theorem below_of_staysInside {folder : α} {segs : List (Segment α)}
    (h : StaysInside folder segs) : (NormalPath.walk ⟨0, [folder]⟩ segs).Below folder := by
  rcases h with h | ⟨p, q, rfl, ⟨hp, heq⟩, hq⟩
  · obtain ⟨top', hwalk, -⟩ := NormalPath.walk_of_climbs (u := 0) (t := []) (b := [folder]) h
    rw [List.nil_append] at hwalk
    exact ⟨by rw [hwalk], by simp [hwalk]⟩
  · -- after `p` nothing is left of the folder, and the name that follows puts it back
    obtain ⟨top', hwalk, hcount⟩ :=
      NormalPath.walk_of_climbs (u := 0) (t := [folder]) (b := []) hp
    rw [List.append_nil, List.append_nil] at hwalk
    have htop : top' = [] := by
      rw [← List.length_eq_zero_iff]
      simp only [List.length_singleton] at hcount
      omega
    obtain ⟨top'', hwalk', -⟩ :=
      NormalPath.walk_of_climbs (u := 0) (t := []) (b := [folder]) hq
    rw [List.nil_append] at hwalk'
    rw [NormalPath.walk_append, hwalk, htop, NormalPath.walk_cons, NormalPath.step, hwalk']
    exact ⟨rfl, by simp⟩

/-- Height of a walk that starts in a folder: the folder itself counts one. -/
private theorem length_walk_folder {folder : α} {segs : List (Segment α)}
    (h : (NormalPath.walk ⟨0, [folder]⟩ segs).ups = 0) :
    (NormalPath.walk ⟨0, [folder]⟩ segs).names.length + upCount segs = 1 + nameCount segs := by
  obtain ⟨top', hwalk, hcount⟩ := NormalPath.walk_of_climbs (u := 0) (t := [folder])
    (b := []) (NormalPath.climbs_of_walk h)
  rw [List.append_nil, List.append_nil] at hwalk
  rw [hwalk]
  exact hcount

private theorem staysInside_concat {folder : α} {segs : List (Segment α)} {s : Segment α}
    (h : StaysInside folder segs)
    (hup : s = .up → 1 < (NormalPath.walk ⟨0, [folder]⟩ segs).names.length) :
    StaysInside folder (segs ++ [s]) := by
  have hlen := length_walk_folder (below_of_staysInside h).1
  rcases h with h | ⟨p, q, rfl, hp, hq⟩
  · -- never above the folder so far, and not with this segment
    refine Or.inl (climbs_concat.mpr ⟨h, fun hs => ?_⟩)
    have := hup hs
    omega
  · -- back in the folder since its name: the segment counts from there
    refine Or.inr ⟨p, q ++ [s], by simp, hp, climbs_concat.mpr ⟨hq, fun hs => ?_⟩⟩
    have hups : upCount (p ++ .name folder :: q) = upCount p + upCount q := by
      simp [upCount, Segment.isUp]
    have hnames : nameCount (p ++ .name folder :: q) = nameCount p + (nameCount q + 1) := by
      simp [nameCount, List.countP_cons, Segment.isName]
    have := hup hs
    omega

private theorem staysInside_of_below {folder : α} {segs : List (Segment α)}
    (h : (NormalPath.walk ⟨0, [folder]⟩ segs).Below folder) : StaysInside folder segs := by
  induction segs using List.reverseRecOn with
  | nil => exact Or.inl (climbs_nil 0)
  | append_singleton segs s ih =>
    rw [NormalPath.walk_concat] at h
    obtain ⟨hups, hlast⟩ := h
    cases s with
    | skip => exact staysInside_concat (ih ⟨hups, hlast⟩) (by simp)
    | up =>
      simp only [NormalPath.step] at hups hlast
      split at hlast
      · simp at hlast
      · rename_i a names hnames
        simp only [hnames] at hups
        -- the folder is still the first name, so the name removed was another one
        have hne : names ≠ [] := by
          rintro rfl
          simp at hlast
        have hbelow : (NormalPath.walk ⟨0, [folder]⟩ segs).Below folder := by
          refine ⟨hups, ?_⟩
          rw [hnames, List.getLast?_cons, hlast, Option.getD_some]
        refine staysInside_concat (ih hbelow) fun _ => ?_
        have := List.length_pos_iff.mpr hne
        rw [hnames, List.length_cons]
        omega
    | name a =>
      simp only [NormalPath.step] at hups hlast
      cases hnames : (NormalPath.walk ⟨0, [folder]⟩ segs).names with
      | nil =>
        -- nothing was left of the folder: this name is the folder again
        have hlen := length_walk_folder hups
        obtain rfl : a = folder := by simpa [hnames] using hlast
        refine Or.inr ⟨segs, [], rfl, ⟨NormalPath.climbs_of_walk hups, ?_⟩, climbs_nil 0⟩
        rw [hnames, List.length_nil] at hlen
        omega
      | cons b names =>
        rw [hnames, List.getLast?_cons_cons] at hlast
        exact staysInside_concat (ih ⟨hups, hnames ▸ hlast⟩) (by simp)

/-- Segments appended to a folder end inside it exactly when they never climb above it, or
climb to its parent only and come back by its name. -/
theorem NormalPath.walk_below_iff {folder : α} {segs : List (Segment α)} :
    (NormalPath.walk ⟨0, [folder]⟩ segs).Below folder ↔ StaysInside folder segs :=
  ⟨staysInside_of_below, below_of_staysInside⟩

end Generic

/-! ## Paths as texts -/

/-- What a segment between slashes means. -/
def segmentOf (s : List UInt8) : Segment (List UInt8) :=
  if s = [] ∨ s = bytes "." then .skip
  else if s = bytes ".." then .up
  else .name s

/-- The segments of a path. -/
def segments (path : List UInt8) : List (Segment (List UInt8)) :=
  (path.splitOn 47).map segmentOf

/-- The normal form of a relative path. -/
def normalize (path : List UInt8) : NormalPath (List UInt8) :=
  NormalPath.walk ⟨0, []⟩ (segments path)

/-- A folder's name followed by a text that starts with a slash: the text's segments are
walked from the folder. -/
theorem normalize_append {folder text : List UInt8} (hname : segmentOf folder = .name folder)
    (hfolder : 47 ∉ folder) (htext : text.head? = some 47) :
    normalize (folder ++ text) = NormalPath.walk ⟨0, [folder]⟩ (segments text) := by
  obtain ⟨rest, rfl⟩ : ∃ rest, text = 47 :: rest := by
    cases text with
    | nil => simp at htext
    | cons c cs => exact ⟨cs, by simpa using htext⟩
  have hsplit : (folder ++ 47 :: rest).splitOn 47 = folder :: rest.splitOn 47 := by
    rw [List.splitOn_append_cons_self, List.splitOn_eq_singleton hfolder, List.singleton_append]
  have hroot : (47 :: rest).splitOn 47 = [] :: rest.splitOn 47 := by
    simpa using List.splitOn_append_cons_self (a := (47 : UInt8)) [] rest
  have hskip : segmentOf [] = .skip := by simp [segmentOf]
  simp only [normalize, segments, hsplit, hroot, List.map_cons, hname, hskip,
    NormalPath.walk_cons, NormalPath.step]

end CLib
