import Mathlib.Logic.Function.Basic
import SelectServer.Systems.Transition

/-!
# A server and its clients over datagrams

One server and any number of clients that exchange datagrams. The network may lose, duplicate
and reorder them, so a datagram that was sent can arrive at any time and any number of times,
and nothing else arrives (`Parties.step`).

A contract says what may be sent after what, and what each party may rely on. When the steps of
every party keep its part of the contract, the contract holds in every run
(`Contract.Keeps.run`): each datagram that was sent is justified by those sent before it. The
part of a run that a party takes is a run of that party alone (`Parties.server_run`,
`Parties.client_run`).
-/

namespace Systems

/-- A datagram: where it comes from, where it goes and what it carries. -/
structure Datagram (A B : Type*) where
  src : A
  dst : A
  data : B
  deriving DecidableEq

/-- The states of all parties, and the datagrams that were sent so far. -/
structure Exchange (κ σ τ A B : Type*) where
  server : σ
  clients : κ → τ
  sent : List (Datagram A B)

/-- A step of the server or of one of the clients. -/
inductive ExchangeLabel (κ ι μ : Type*)
  | server (l : ι)
  | client (k : κ) (l : μ)

/-- The step functions of the parties, with the datagrams that a step sends, and the one that
arrives in it. -/
structure Parties (κ σ τ ι μ A B : Type*) where
  serverStep : σ → ι → Option (σ × List (Datagram A B))
  serverInput : ι → Option (Datagram A B)
  clientStep : κ → τ → μ → Option (τ × List (Datagram A B))
  clientInput : κ → μ → Option (Datagram A B)

variable {κ σ τ ι μ A B : Type*}

/-- The step of a server in a label, if it is one. -/
def ExchangeLabel.server? : ExchangeLabel κ ι μ → Option ι
  | .server l => some l
  | .client .. => none

/-- The step of a client in a label, if it is one. -/
def ExchangeLabel.client? [DecidableEq κ] (k : κ) : ExchangeLabel κ ι μ → Option μ
  | .server _ => none
  | .client k' l => if k' = k then some l else none

/-- A step of a party, when what arrives in it was sent. -/
def Parties.step [DecidableEq κ] [DecidableEq A] [DecidableEq B]
    (p : Parties κ σ τ ι μ A B) (s : Exchange κ σ τ A B) :
    ExchangeLabel κ ι μ → Option (Exchange κ σ τ A B)
  | .server l =>
    if ∀ d ∈ p.serverInput l, d ∈ s.sent then
      (p.serverStep s.server l).map fun r => { s with server := r.1, sent := s.sent ++ r.2 }
    else none
  | .client k l =>
    if ∀ d ∈ p.clientInput k l, d ∈ s.sent then
      (p.clientStep k (s.clients k) l).map fun r =>
        { s with clients := Function.update s.clients k r.1, sent := s.sent ++ r.2 }
    else none

/-- Each datagram is justified by those in front of it. -/
def Caused (justified : List (Datagram A B) → Datagram A B → Prop)
    (sent : List (Datagram A B)) : Prop :=
  ∀ before d after, sent = before ++ d :: after → justified before d

theorem caused_nil (justified : List (Datagram A B) → Datagram A B → Prop) :
    Caused justified [] := by
  intro before d after h
  simp at h

theorem Caused.append {justified : List (Datagram A B) → Datagram A B → Prop}
    (hmono : ∀ {before more d}, justified before d → justified (before ++ more) d)
    {sent out : List (Datagram A B)} (h : Caused justified sent)
    (hout : ∀ d ∈ out, justified sent d) : Caused justified (sent ++ out) := by
  intro before d after heq
  rcases List.append_eq_append_iff.mp heq with ⟨more, rfl, rfl⟩ | ⟨more, rfl, hafter⟩
  · exact hmono (hout d (List.mem_append_right more List.mem_cons_self))
  · cases more with
    | nil =>
      rw [List.append_nil] at hout
      obtain rfl : d :: after = out := hafter
      exact hout d List.mem_cons_self
    | cons d' more =>
      obtain ⟨rfl, -⟩ := List.cons.inj hafter
      exact h before d more rfl

theorem Caused.of_mem {justified : List (Datagram A B) → Datagram A B → Prop}
    {sent : List (Datagram A B)} (h : Caused justified sent) {d : Datagram A B} (hd : d ∈ sent) :
    ∃ before, before <+: sent ∧ justified before d := by
  obtain ⟨before, after, rfl⟩ := List.append_of_mem hd
  exact ⟨before, List.prefix_append _ _, h before d after rfl⟩

/-- What may be sent after what was sent before, and what each party can say of its state and
of what was sent; none of it gets lost when more is sent. -/
structure Contract (κ σ τ A B : Type*) where
  justified : List (Datagram A B) → Datagram A B → Prop
  server : List (Datagram A B) → σ → Prop
  client : κ → List (Datagram A B) → τ → Prop
  justified_mono : ∀ {before more d}, justified before d → justified (before ++ more) d
  server_mono : ∀ {sent more s}, server sent s → server (sent ++ more) s
  client_mono : ∀ {k sent more t}, client k sent t → client k (sent ++ more) t

/-- The contract holds of a state. -/
structure Contract.Holds (c : Contract κ σ τ A B) (s : Exchange κ σ τ A B) : Prop where
  caused : Caused c.justified s.sent
  server : c.server s.sent s.server
  clients : ∀ k, c.client k s.sent (s.clients k)

/-- The steps of each party keep its part of the contract, as long as the others keep theirs. -/
structure Contract.Keeps (c : Contract κ σ τ A B) (p : Parties κ σ τ ι μ A B) : Prop where
  server : ∀ {sent s l s' out}, Caused c.justified sent → c.server sent s →
    (∀ d ∈ p.serverInput l, d ∈ sent) → p.serverStep s l = some (s', out) →
      c.server (sent ++ out) s' ∧ ∀ d ∈ out, c.justified sent d
  client : ∀ {k sent t l t' out}, Caused c.justified sent → c.client k sent t →
    (∀ d ∈ p.clientInput k l, d ∈ sent) → p.clientStep k t l = some (t', out) →
      c.client k (sent ++ out) t' ∧ ∀ d ∈ out, c.justified sent d

variable [DecidableEq κ] [DecidableEq A] [DecidableEq B] {c : Contract κ σ τ A B}
  {p : Parties κ σ τ ι μ A B} {s s' : Exchange κ σ τ A B}

theorem Contract.Keeps.step (hkeeps : c.Keeps p) (h : c.Holds s) {l : ExchangeLabel κ ι μ}
    (hstep : p.step s l = some s') : c.Holds s' := by
  cases l with
  | server l =>
    simp only [Parties.step, Option.ite_none_right_eq_some, Option.map_eq_some_iff] at hstep
    obtain ⟨hinput, ⟨server, out⟩, hserver, rfl⟩ := hstep
    obtain ⟨hkept, hout⟩ := hkeeps.server h.caused h.server hinput hserver
    exact ⟨h.caused.append c.justified_mono hout, hkept, fun k => c.client_mono (h.clients k)⟩
  | client k l =>
    simp only [Parties.step, Option.ite_none_right_eq_some, Option.map_eq_some_iff] at hstep
    obtain ⟨hinput, ⟨client, out⟩, hclient, rfl⟩ := hstep
    obtain ⟨hkept, hout⟩ := hkeeps.client h.caused (h.clients k) hinput hclient
    refine ⟨h.caused.append c.justified_mono hout, c.server_mono h.server, fun k' => ?_⟩
    show c.client k' (s.sent ++ out) (Function.update s.clients k client k')
    by_cases hk : k' = k
    · subst hk
      rw [Function.update_self]
      exact hkept
    · rw [Function.update_of_ne hk]
      exact c.client_mono (h.clients k')

/-- A contract that every party keeps holds in every run. -/
theorem Contract.Keeps.run (hkeeps : c.Keeps p) (h : c.Holds s) {ls : List (ExchangeLabel κ ι μ)}
    (hrun : run p.step s ls = some s') : c.Holds s' :=
  run_invariant (fun _ _ _ h hstep => hkeeps.step h hstep) h hrun

/-- The server's part of a run is a run of the server. -/
theorem Parties.server_run {ls : List (ExchangeLabel κ ι μ)} (hrun : run p.step s ls = some s') :
    run (fun t l => (p.serverStep t l).map Prod.fst) s.server (ls.filterMap (·.server?)) =
      some s'.server := by
  induction ls generalizing s with
  | nil =>
    obtain rfl := Option.some.inj hrun
    rfl
  | cons l ls ih =>
    obtain ⟨s₁, hstep, hrun⟩ := run_cons_eq_some.mp hrun
    rw [← ih hrun]
    cases l with
    | server l =>
      simp only [Parties.step, Option.ite_none_right_eq_some, Option.map_eq_some_iff] at hstep
      obtain ⟨-, r, hr, rfl⟩ := hstep
      simp [Systems.run, ExchangeLabel.server?, hr]
    | client k l =>
      simp only [Parties.step, Option.ite_none_right_eq_some, Option.map_eq_some_iff] at hstep
      obtain ⟨-, r, -, rfl⟩ := hstep
      rfl

/-- A client's part of a run is a run of that client. -/
theorem Parties.client_run (k : κ) {ls : List (ExchangeLabel κ ι μ)}
    (hrun : run p.step s ls = some s') :
    run (fun t l => (p.clientStep k t l).map Prod.fst) (s.clients k)
      (ls.filterMap (·.client? k)) = some (s'.clients k) := by
  induction ls generalizing s with
  | nil =>
    obtain rfl := Option.some.inj hrun
    rfl
  | cons l ls ih =>
    obtain ⟨s₁, hstep, hrun⟩ := run_cons_eq_some.mp hrun
    rw [← ih hrun]
    cases l with
    | server l =>
      simp only [Parties.step, Option.ite_none_right_eq_some, Option.map_eq_some_iff] at hstep
      obtain ⟨-, r, -, rfl⟩ := hstep
      rfl
    | client k' l =>
      simp only [Parties.step, Option.ite_none_right_eq_some, Option.map_eq_some_iff] at hstep
      obtain ⟨-, r, hr, rfl⟩ := hstep
      by_cases hk : k' = k
      · subst hk
        simp [Systems.run, ExchangeLabel.client?, hr]
      · simp [ExchangeLabel.client?, hk, Function.update_of_ne (Ne.symm hk)]

end Systems
