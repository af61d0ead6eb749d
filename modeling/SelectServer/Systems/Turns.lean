import Mathlib.Data.List.Basic
import Mathlib.Data.List.Induction
import Mathlib.Order.Nat
import Mathlib.Tactic.Choose

/-!
# Exchanges through one slot

One side of an exchange reads things and sends things, and keeps what it has read last in
one slot until it has answered it. `InTurn` says of a log of reads and sends that an answer
is only sent to what the slot holds, and, when the exchange is strict, that nothing is read
while the slot is occupied.

From the first half every answer has a question of its own (`solicited_of_inTurn`,
`Solicited.exists_injection`); with the second half every question is answered exactly once
before the next read (`answeredOnce_of_inTurn`). A log is kept in turn one event at a time
(`inTurn_concat`), which is the step that a model of a concrete exchange has to prove.
-/

namespace Systems

variable {α β : Type*}

/-- An event of an exchange. -/
inductive Turn (α β : Type*)
  | read (a : α)
  | sent (b : β)
  deriving DecidableEq, Repr

/-- Something was read. -/
def Turn.isRead : Turn α β → Bool
  | .read _ => true
  | .sent _ => false

/-- An answer was sent. -/
def Turn.isAnswer (answers : β → Bool) : Turn α β → Bool
  | .read _ => false
  | .sent b => answers b

section

variable (asks : α → Bool) (answers : β → Bool) (fits : α → β → Prop)

/-- The slot after an event: what was read, if it asks for an answer, until it is answered. -/
def slotAfter (slot : Option α) : Turn α β → Option α
  | .read a => if asks a then some a else none
  | .sent b => if answers b then none else slot

/-- The slot after a log. -/
def pending (log : List (Turn α β)) : Option α := log.foldl (slotAfter asks answers) none

/-- Answers only go to what the slot holds; and nothing is read over it, if `strict`. -/
def InTurn (strict : Prop) : Option α → List (Turn α β) → Prop
  | _, [] => True
  | slot, .read a :: log =>
    (strict → slot = none) ∧ InTurn strict (slotAfter asks answers slot (.read a)) log
  | slot, .sent b :: log =>
    (answers b = true → ∃ a, slot = some a ∧ fits a b) ∧
      InTurn strict (slotAfter asks answers slot (.sent b)) log

/-- Every answer has its question: the last thing read before it, not answered so far. -/
def Solicited (log : List (Turn α β)) : Prop :=
  ∀ u b w, log = u ++ .sent b :: w → answers b = true →
    ∃ p a v, u = p ++ .read a :: v ∧ asks a = true ∧ fits a b ∧
      ∀ e ∈ v, e.isRead = false ∧ e.isAnswer answers = false

/-- Between a question and the next read there is exactly one answer, and it fits. -/
def AnsweredOnce (log : List (Turn α β)) : Prop :=
  ∀ u a v x w, log = u ++ .read a :: (v ++ .read x :: w) → asks a = true →
    (∀ e ∈ v, e.isRead = false) →
      v.countP (Turn.isAnswer answers) = 1 ∧ ∀ b, .sent b ∈ v → answers b = true → fits a b

end

variable {asks : α → Bool} {answers : β → Bool} {fits : α → β → Prop} {strict : Prop}
  {slot : Option α} {log : List (Turn α β)}

theorem Solicited.mono {asks' : α → Bool} (h : Solicited asks answers fits log)
    (himp : ∀ a, .read a ∈ log → asks a = true → asks' a = true) :
    Solicited asks' answers fits log := by
  intro u b w hlog hb
  obtain ⟨p, a, v, rfl, hasks, hfits, hv⟩ := h u b w hlog hb
  exact ⟨p, a, v, rfl, himp a (by simp [hlog]) hasks, hfits, hv⟩

theorem AnsweredOnce.mono {asks' : α → Bool} (h : AnsweredOnce asks answers fits log)
    (himp : ∀ a, .read a ∈ log → asks' a = true → asks a = true) :
    AnsweredOnce asks' answers fits log := by
  intro u a v x w hlog hasks
  exact h u a v x w hlog (himp a (by simp [hlog]) hasks)

/-! ## One event more -/

@[simp] theorem pending_nil : pending asks answers ([] : List (Turn α β)) = none := rfl

theorem pending_concat (log : List (Turn α β)) (e : Turn α β) :
    pending asks answers (log ++ [e]) = slotAfter asks answers (pending asks answers log) e := by
  simp [pending]

theorem pending_read (log : List (Turn α β)) (a : α) :
    pending asks answers (log ++ [.read a]) = if asks a then some a else none :=
  pending_concat log _

theorem pending_sent (log : List (Turn α β)) (b : β) :
    pending asks answers (log ++ [.sent b]) =
      if answers b then none else pending asks answers log :=
  pending_concat log _

/-- What is pending when fewer things ask for an answer is pending when more do. -/
theorem pending_mono {asks' : α → Bool} {a : α}
    (himp : ∀ a, .read a ∈ log → asks' a = true → asks a = true)
    (h : pending asks' answers log = some a) : pending asks answers log = some a := by
  induction log using List.reverseRecOn with
  | nil => simp at h
  | append_singleton log e ih =>
    cases e with
    | read x =>
      rw [pending_read, Option.ite_none_right_eq_some, Option.some.injEq] at h
      obtain ⟨hx, rfl⟩ := h
      rw [pending_read, if_pos (himp x (by simp) hx)]
    | sent b =>
      rw [pending_sent, Option.ite_none_left_eq_some] at h
      rw [pending_sent, if_neg h.1]
      exact ih (fun x hx => himp x (by simp [hx])) h.2

theorem inTurn_append (u v : List (Turn α β)) :
    InTurn asks answers fits strict slot (u ++ v) ↔ InTurn asks answers fits strict slot u ∧
      InTurn asks answers fits strict (u.foldl (slotAfter asks answers) slot) v := by
  induction u generalizing slot with
  | nil => simp [InTurn]
  | cons e u ih => cases e <;> simp [InTurn, ih, and_assoc]

/-- A log stays in turn with an event that its slot admits. -/
theorem inTurn_concat (e : Turn α β) : InTurn asks answers fits strict none (log ++ [e]) ↔
    InTurn asks answers fits strict none log ∧
      InTurn asks answers fits strict (pending asks answers log) [e] :=
  inTurn_append log [e]

theorem InTurn.concat_read (h : InTurn asks answers fits strict none log) {a : α}
    (hfree : strict → pending asks answers log = none) :
    InTurn asks answers fits strict none (log ++ [.read a]) :=
  (inTurn_concat _).mpr ⟨h, hfree, trivial⟩

theorem InTurn.concat_sent (h : InTurn asks answers fits strict none log) {b : β}
    (hpending : answers b = true → ∃ a, pending asks answers log = some a ∧ fits a b) :
    InTurn asks answers fits strict none (log ++ [.sent b]) :=
  (inTurn_concat _).mpr ⟨h, hpending, trivial⟩

/-! ## Answers have questions -/

/-- What the slot holds is the last thing read, or what it held at the beginning. -/
private theorem foldl_slot_eq_some {a : α}
    (h : log.foldl (slotAfter asks answers) slot = some a) :
    (∃ p v, log = p ++ .read a :: v ∧ asks a = true ∧
        ∀ e ∈ v, e.isRead = false ∧ e.isAnswer answers = false) ∨
      (slot = some a ∧ ∀ e ∈ log, e.isRead = false ∧ e.isAnswer answers = false) := by
  induction log generalizing slot with
  | nil => exact Or.inr ⟨h, by simp⟩
  | cons e log ih =>
    rcases ih h with ⟨p, v, rfl, hasks, hv⟩ | ⟨hslot, hlog⟩
    · exact Or.inl ⟨e :: p, v, rfl, hasks, hv⟩
    · -- no read and no answer comes later: it is this event that filled the slot, or none
      cases e with
      | read x =>
        simp only [slotAfter, Option.ite_none_right_eq_some, Option.some.injEq] at hslot
        obtain ⟨hasks, rfl⟩ := hslot
        exact Or.inl ⟨[], log, rfl, hasks, hlog⟩
      | sent b =>
        simp only [slotAfter, Option.ite_none_left_eq_some] at hslot
        obtain ⟨hanswers, hslot⟩ := hslot
        refine Or.inr ⟨hslot, ?_⟩
        intro e he
        rcases List.mem_cons.mp he with rfl | he
        · exact ⟨rfl, by simpa [Turn.isAnswer] using hanswers⟩
        · exact hlog e he

theorem solicited_of_inTurn (h : InTurn asks answers fits strict none log) :
    Solicited asks answers fits log := by
  rintro u b w rfl hb
  obtain ⟨a, hslot, hfits⟩ := ((inTurn_append u _).mp h).2.1 hb
  rcases foldl_slot_eq_some hslot with ⟨p, v, hu, hasks, hv⟩ | ⟨hnone, -⟩
  · exact ⟨p, a, v, hu, hasks, hfits, hv⟩
  · simp at hnone

/-- The answers can be told apart by their questions: they map to earlier questions that they
fit, no two of them to the same. -/
theorem Solicited.exists_injection (h : Solicited asks answers fits log) :
    ∃ f : Nat → Nat,
      (∀ i b, log[i]? = some (.sent b) → answers b = true →
        f i < i ∧ ∃ a, log[f i]? = some (.read a) ∧ asks a = true ∧ fits a b) ∧
      ∀ i j b c, log[i]? = some (.sent b) → answers b = true →
        log[j]? = some (.sent c) → answers c = true → f i = f j → i = j := by
  -- the question of an answer, with nothing read and nothing answered in between
  have hquestion : ∀ i : Nat, ∃ k : Nat, ∀ b, log[i]? = some (Turn.sent b) → answers b = true →
      (k < i ∧ ∃ a, log[k]? = some (Turn.read a) ∧ asks a = true ∧ fits a b) ∧
        ∀ m, k < m → m < i → ∀ c, log[m]? = some (Turn.sent c) → answers c = false := by
    intro i
    by_cases hi : ∃ b, log[i]? = some (Turn.sent b) ∧ answers b = true
    · obtain ⟨b, hget, hb⟩ := hi
      obtain ⟨hlt, hgetElem⟩ := List.getElem?_eq_some_iff.mp hget
      have hsplit : log = log.take i ++ .sent b :: log.drop (i + 1) := by
        rw [← hgetElem, List.getElem_cons_drop, List.take_append_drop]
      obtain ⟨p, a, v, hu, hasks, hfits, hv⟩ := h _ b _ hsplit hb
      have hlen : p.length + 1 + v.length = i := by
        have := congrArg List.length hu
        simp only [List.length_take, List.length_append, List.length_cons] at this
        omega
      have hbefore : ∀ m, m < i → log[m]? = (p ++ Turn.read a :: v)[m]? := by
        intro m hm
        rw [← hu, List.getElem?_take_of_lt hm]
      refine ⟨p.length, fun b' hget' _ => ?_⟩
      obtain rfl : b = b' := by simpa [hget] using hget'
      refine ⟨⟨by omega, a, ?_, hasks, hfits⟩, fun m hkm hmi c hc => ?_⟩
      · rw [hbefore _ (by omega), List.getElem?_append_right le_rfl, Nat.sub_self]
        rfl
      · rw [hbefore m hmi, List.getElem?_append_right hkm.le] at hc
        obtain ⟨d, hd⟩ : ∃ d, m - p.length = d + 1 := ⟨m - p.length - 1, by omega⟩
        rw [hd, List.getElem?_cons_succ] at hc
        exact (hv _ (List.mem_of_getElem? hc)).2
    · exact ⟨0, fun b hget hb => absurd ⟨b, hget, hb⟩ hi⟩
  choose f hf using hquestion
  refine ⟨f, fun i b hget hb => (hf i b hget hb).1, fun i j b c hi hb hj hc heq => ?_⟩
  have hlt_i := (hf i b hi hb).1.1
  have hlt_j := (hf j c hj hc).1.1
  -- the earlier of two answers would stand between the later one and its question
  rcases lt_trichotomy i j with hlt | heq | hgt
  · have := (hf j c hj hc).2 i (by omega) hlt b hi
    simp [hb] at this
  · exact heq
  · have := (hf i b hi hb).2 j (by omega) hgt c hj
    simp [hc] at this

/-! ## Questions have answers -/

private theorem countP_of_inTurn_none (h : InTurn asks answers fits strict none log)
    (hreads : ∀ e ∈ log, e.isRead = false) : log.countP (Turn.isAnswer answers) = 0 := by
  induction log with
  | nil => rfl
  | cons e log ih =>
    cases e with
    | read a => simpa [Turn.isRead] using hreads _ List.mem_cons_self
    | sent b =>
      -- nothing may be answered while the slot is empty
      have hb : answers b = false := by
        by_contra hne
        obtain ⟨a, ha, -⟩ := h.1 (by simpa using hne)
        simp at ha
      have hrest := h.2
      simp only [slotAfter, hb, Bool.false_eq_true, if_false] at hrest
      simpa [Turn.isAnswer, hb] using
        ih hrest fun e he => hreads e (List.mem_cons_of_mem _ he)

private theorem answers_of_inTurn_some {a : α}
    (h : InTurn asks answers fits strict (some a) log)
    (hreads : ∀ e ∈ log, e.isRead = false)
    (hempty : log.foldl (slotAfter asks answers) (some a) = none) :
    log.countP (Turn.isAnswer answers) = 1 ∧
      ∀ b, .sent b ∈ log → answers b = true → fits a b := by
  induction log with
  | nil => simp at hempty
  | cons e log ih =>
    have hreads' : ∀ e ∈ log, e.isRead = false := fun e he =>
      hreads e (List.mem_cons_of_mem _ he)
    cases e with
    | read x => simpa [Turn.isRead] using hreads _ List.mem_cons_self
    | sent b =>
      have hrest := h.2
      by_cases hb : answers b = true
      · -- the answer, which fits; no other one follows
        simp only [slotAfter, hb, if_true] at hrest
        have hcount := countP_of_inTurn_none hrest hreads'
        refine ⟨by simpa [Turn.isAnswer, hb] using hcount, fun c hc hanswers => ?_⟩
        rcases List.mem_cons.mp hc with heq | hc
        · obtain rfl : c = b := by injection heq
          obtain ⟨a', ha', hfits⟩ := h.1 hb
          rwa [Option.some.inj ha']
        · have := List.countP_eq_zero.mp hcount _ hc
          simp [Turn.isAnswer, hanswers] at this
      · simp only [List.foldl_cons, slotAfter, if_neg hb] at hrest hempty
        obtain ⟨hcount, hfits⟩ := ih hrest hreads' hempty
        refine ⟨by simpa [Turn.isAnswer, hb] using hcount, fun c hc hanswers => ?_⟩
        rcases List.mem_cons.mp hc with heq | hc
        · obtain rfl : c = b := by injection heq
          exact absurd hanswers hb
        · exact hfits c hc hanswers

theorem answeredOnce_of_inTurn (h : InTurn asks answers fits True none log) :
    AnsweredOnce asks answers fits log := by
  rintro u a v x w rfl hasks hreads
  have hbehind := ((inTurn_append u _).mp h).2.2
  simp only [slotAfter, hasks, if_true] at hbehind
  obtain ⟨hv, hnext⟩ := (inTurn_append v _).mp hbehind
  exact answers_of_inTurn_some hv hreads (hnext.1 trivial)

end Systems
