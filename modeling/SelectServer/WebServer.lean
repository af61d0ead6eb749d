import SelectServer.Server.ServedClients
import SelectServer.WebExchange

/-!
# The server and all its visitors

A client asks the server for a resource of a site, among any number of clients of all
protocols, which may hang up, fail or be dropped. In every run in which the server shows this
client the site, nothing was sent to it so far, and its request is still to be taken or is in its
record, or it ends with the answer of the site to its own request (`site_served`).
-/

namespace SelectServer

open CLib Systems

/-! ## One visitor -/

/-- The conditions of the passes over the connection of one client: select reports a read only
while there are bytes, no call of the read handler fails, and the write handler is shown the
site at the path that it answers. -/
def Site.ServesPass (site : Site) : ClientConnection → ClientPass → Prop
  | .http c, .http (.read threadResult mem) =>
    threadResult = true ∧ mem.Succeeds ∧ c.socket.bytes ≠ []
  | .http c, .http (.write env) =>
    env.threadResult = true ∧
      ∀ request, c.data.request = some request → env.Shows site request.line.uri
  | .http _, .http .dropped => False
  | _, _ => True

/-- Where a connection stands whose client has asked for a resource. -/
inductive HttpConnection.Visits (site : Site) (resource : List UInt8) (c : HttpConnection) : Prop
  | asked (h : c.Asked resource)
  | taken (h : c.Taken resource)
  | answered (h : c.Answered (site.answer (47 :: resource)))

section Visits

variable {site : Site} {resource : List UInt8} {c c' : HttpConnection}

theorem HttpConnection.Visits.step (h : c.Visits site resource) (hresource : Nameable resource)
    (hfits : (site.answer (47 :: resource)).Fits) {pass : HttpPass}
    (hserves : site.ServesPass (.http c) (.http pass)) (hpass : httpPass c pass = some c') :
    c'.Visits site resource := by
  cases pass with
  | dropped => exact absurd hserves id
  | read threadResult mem =>
    cases h with
    | asked h =>
      have hread : site.Serves (47 :: resource) c (.read threadResult mem) := hserves
      exact .taken (h.read hresource hread hpass)
    | taken h => exact absurd h.socket hserves.2.2
    | answered h => exact absurd h.socket hserves.2.2
  | write env =>
    obtain ⟨hresult, hshows⟩ := hserves
    cases h with
    | asked h =>
      obtain rfl := Option.some.inj ((httpPass_idle h.isOpen h.request hresult).symm.trans hpass)
      exact .asked h
    | taken h =>
      obtain ⟨request, hrequest, huri⟩ := h.request
      exact .answered (h.write hfits ⟨hresult, huri ▸ hshows request hrequest⟩ hpass)
    | answered h =>
      obtain rfl := Option.some.inj ((httpPass_idle h.isOpen h.request hresult).symm.trans hpass)
      exact .answered h

/-- A visitor that was just accepted. -/
theorem HttpConnection.visits_accepted {fd : Int} {stream : ByteSource UInt8}
    (h : stream.bytes = (clientGet resource).head) :
    (HttpConnection.accepted fd stream).Visits site resource := .asked ⟨rfl, rfl, h, rfl⟩

/-- The request is not lost before it is answered. -/
theorem HttpConnection.Visits.sent_eq_nil_or (h : c.Visits site resource) :
    sentIn c.log = [] ∧ (c.socket.bytes = (clientGet resource).head ∨
        ∃ request, c.data.request = some request ∧ request.line.uri = 47 :: resource) ∨
      (site.answer (47 :: resource)).Begins (sentIn c.log) := by
  cases h with
  | asked h => exact Or.inl ⟨h.sent, Or.inl h.socket⟩
  | taken h => exact Or.inl ⟨h.sent, Or.inr h.request⟩
  | answered h => exact Or.inr h.sent

end Visits

/-! ## One visitor among others -/

section Server

variable {site : Site} {l : ListeningSockets} {s : Server}
  {cond : ClientConnection → ClientPass → Prop} {hcond : HeartbeatServer → HeartbeatPass → Prop}
  {t : Slots Nat clientPass cond} {u : Session heartbeatPass hcond} {n fd : Nat}
  {stream : ByteSource UInt8} {resource : List UInt8}

/-- A visitor has a session, and that stands where a visit can stand. -/
theorem Server.Refines.visits (h : s.Refines l t u)
    (hserves : ∀ session, t.sessions[n]? = some session →
      Meets clientPass site.ServesPass session.init session.labels)
    (hresource : Nameable resource) (hfits : (site.answer (47 :: resource)).Fits)
    (harrived : s.arrivals[n]? = some ⟨.http, fd, stream⟩)
    (hasked : stream.bytes = (clientGet resource).head) :
    ∃ session c, t.sessions[n]? = some session ∧ session.state = .http c ∧
      c.Visits site resource := by
  have hinit : (t.sessions.map Session.init)[n]? =
      some (Arrival.mk .http fd stream).connection := by
    rw [h.arrivals, List.getElem?_map, harrived]
    rfl
  rw [List.getElem?_map, Option.map_eq_some_iff] at hinit
  obtain ⟨session, hn, hinit⟩ := hinit
  suffices hstate : ∃ c, session.state = .http c ∧ c.Visits site resource by
    obtain ⟨c, hc⟩ := hstate
    exact ⟨session, c, hn, hc⟩
  refine run_invariant_of_meets (P := fun c => ∃ d, c = .http d ∧ d.Visits site resource) ?_
    ⟨_, hinit, HttpConnection.visits_accepted hasked⟩ (hserves session hn) session.run_eq
  rintro c pass c' ⟨d, rfl, hvisits⟩ hpassed hpass
  cases pass with
  | simple pass => cases hpass
  | http pass =>
    obtain ⟨d', hd', rfl⟩ := Option.map_eq_some_iff.mp hpass
    exact ⟨d', rfl, hvisits.step hresource hfits hpassed hd'⟩

end Server

/-- In every run of the server, with any number of clients of all protocols and any interleaving
of their passes, in which the handlers of one client, which has asked for a resource, are shown
the site: the client ends with the answer of the site to its own request, or nothing was sent to
it so far. Then its request is not lost: while the connection is open, it is in the stream or in
the record of the client. Whatever becomes of the other clients has no part in it. -/
theorem site_served (site : Site) (l : ListeningSockets) {events : List ServerEvent} {s : Server}
    {n fd : Nat} (hmeets : Meets (serverStep l) (TasksOfMeet l n site.ServesPass) (.initial l)
      events)
    (hrun : run (serverStep l) (.initial l) events = some s)
    {stream reply : ByteSource UInt8} (harrived : s.arrivals[n]? = some ⟨.http, fd, stream⟩)
    {resource : List UInt8} (hresource : Nameable resource)
    (hfits : (site.answer (47 :: resource)).Fits) {client : ClientEnv} (hclient : client.Succeeds)
    (hasked : stream.bytes = (handleConnectionHttp client resource reply).sent)
    (hreply : reply.bytes = sentIn (s.httpLog n)) :
    (sentIn (s.httpLog n) = [] ∧
      ∀ i, s.loop.tables.opened i = some ⟨.http, n⟩ →
        (s.streams i).bytes = stream.bytes ∨
          ∃ request, (s.httpClients i).request = some request ∧
            request.line.uri = 47 :: resource) ∨
      ClientGets client resource reply (site.answer (47 :: resource)) := by
  have hsent := sent_clientGet hclient hresource reply
  rw [hsent] at hasked
  obtain ⟨t, u, h, hserves⟩ := server_follows_client l hmeets hrun
  obtain ⟨session, c, hn, hstate, hvisits⟩ := h.visits hserves hresource hfits harrived hasked
  have hlog : s.httpLog n = c.log := by
    have hlogged := h.log n session hn
    rw [hstate] at hlogged
    exact hlogged.1
  rw [hlog] at hreply ⊢
  rcases hvisits.sent_eq_nil_or with ⟨hnil, hkept⟩ | hbegins
  · refine Or.inl ⟨hnil, fun i hopen => ?_⟩
    -- the descriptor stands for this very session
    obtain ⟨session', isOpen, hn', hview, -⟩ := h.state i _ hopen
    obtain rfl := Option.some.inj (hn.symm.trans hn')
    obtain rfl := ClientConnection.http.inj (hstate.symm.trans hview)
    rw [hasked]
    exact hkept
  · rw [← hreply] at hbegins
    exact Or.inr (clientGets_of_begins hclient hresource (site.answer_typed _) hfits hbegins)

/-! ### A visitor among others -/

/-- The request of a client for the file of `noteSite`, in two segments. -/
def noteRequest : ByteSource UInt8 :=
  let get := (clientGet (bytes "a.txt")).head
  ⟨[get.take 7, get.drop 7], .closed⟩

/-- A pass over the descriptors up to 8 of a server that shows `noteSite`. -/
def notePass (accepted : Option Nat) (stream : ByteSource UInt8) (visits : Nat) :
    List ServerEvent :=
  List.replicate visits (.visit { VisitEnv.ideal accepted stream with httpWrite := noteEnv }) ++
    [.leave]

/-- A simple client, a visitor and an HTTP client that hangs up connect; all of them and a
heartbeat are read in one pass, in which the last client is dropped, and the others are answered
in the next one. -/
def noteVisit : List ServerEvent :=
  .select 1 {3} ∅ ∅ :: notePass (some 6) twoPings 4 ++
    .select 1 {5} ∅ ∅ :: notePass (some 7) noteRequest 6 ++
    .select 1 {5} ∅ ∅ :: notePass (some 8) ⟨[], .closed⟩ 6 ++
    .select 4 {4, 6, 7, 8} ∅ ∅ :: notePass none twoPings 9 ++
    .select 3 ∅ {4, 6, 7} ∅ :: notePass none twoPings 8

/-- What the conditions ask of the passes over the connection of a client that asks for the
note. -/
def AskedForNote : ClientConnection → ClientPass → Prop
  | .http c, .http (.read _ _) => c.socket.bytes ≠ []
  | .http c, .http (.write _) =>
    ∀ request ∈ c.data.request, request.line.uri = bytes "/a.txt"
  | .http _, .http .dropped => False
  | _, _ => True

instance : ∀ (c : ClientConnection) (pass : ClientPass), Decidable (AskedForNote c pass)
  | .http c, .http (.read _ _) => inferInstanceAs (Decidable (c.socket.bytes ≠ []))
  | .http c, .http (.write _) => inferInstanceAs (Decidable
      (∀ request ∈ c.data.request, request.line.uri = bytes "/a.txt"))
  | .http _, .http .dropped => isFalse id
  | .simple _, _ => isTrue trivial
  | .http _, .simple _ => isTrue trivial

/-- A system that shows the site answers every pass. -/
theorem servesPass_of_askedForNote {env : VisitEnv} (hresult : env.threadResult = true)
    (hmem : env.receiveMemory = .ideal) (hwrite : env.httpWrite = noteEnv) {c : ClientConnection}
    {p : Protocol} {d : Direction} (h : AskedForNote c (env.pass p d)) :
    noteSite.ServesPass c (env.pass p d) := by
  cases c with
  | simple c => trivial
  | http c =>
    cases p with
    | tcp => cases d <;> trivial
    | http =>
      cases d with
      | read => exact ⟨hresult, hmem ▸ ReceiveMemory.ideal_succeeds, h⟩
      | write =>
        rw [VisitEnv.pass, hwrite] at h ⊢
        refine ⟨rfl, fun request hrequest => ?_⟩
        rw [h request hrequest]
        exact noteEnv_shows

/-- The visitor gets the note, and the client that hung up is gone. -/
theorem site_served_noteVisit :
    ∃ s, run (serverStep firstSockets) (.initial firstSockets) noteVisit = some s ∧
      s.loop.tables.opened 8 = none ∧
      ∀ reply : ByteSource UInt8, reply.bytes = sentIn (s.httpLog 1) →
        ClientGets .ideal (bytes "a.txt") reply (.content (bytes "text/plain") (bytes "hi")) := by
  have hfacts : (run (serverStep firstSockets) (.initial firstSockets) noteVisit).map
      (fun s => (s.arrivals[1]?, s.loop.tables.opened 8, decide (sentIn (s.httpLog 1) = []))) =
        some (some ⟨.http, 7, noteRequest⟩, none, false) := by decide +kernel
  obtain ⟨s, hs, hfacts⟩ := Option.map_eq_some_iff.mp hfacts
  obtain ⟨harrived, hrest⟩ := Prod.mk.inj hfacts
  obtain ⟨hgone, hsent⟩ := Prod.mk.inj hrest
  have hstates : Meets (serverStep firstSockets) (TasksOfMeet firstSockets 1 AskedForNote)
      (.initial firstSockets) noteVisit := by decide +kernel
  have hmeets : Meets (serverStep firstSockets) (TasksOfMeet firstSockets 1 noteSite.ServesPass)
      (.initial firstSockets) noteVisit := by
    refine hstates.mono_of_mem fun s event hevent h => ⟨h.1, ?_⟩
    cases event with
    | visit env =>
      have henv : env.threadResult = true ∧ env.receiveMemory = .ideal ∧
          env.httpWrite = noteEnv := by
        simp only [noteVisit, notePass, List.mem_cons, List.mem_append, List.mem_replicate,
          reduceCtorEq, false_or, List.mem_nil_iff, or_false, ServerEvent.visit.injEq] at hevent
        rcases hevent with (((⟨-, rfl⟩ | ⟨-, rfl⟩) | ⟨-, rfl⟩) | ⟨-, rfl⟩) | ⟨-, rfl⟩ <;>
          exact ⟨rfl, rfl, rfl⟩
      rintro ⟨i, task⟩ hruns
      have htask := h.2 (i, task) hruns
      cases task with
      | heartbeat => trivial
      | client p d =>
        exact fun c hc hn => servesPass_of_askedForNote henv.1 henv.2.1 henv.2.2 (htask c hc hn)
    | _ => trivial
  refine ⟨s, hs, hgone, fun reply hreply => ?_⟩
  have hresource : Nameable (bytes "a.txt") := ⟨by decide, by decide, by decide⟩
  have hanswer : noteSite.answer (47 :: bytes "a.txt") =
      .content (bytes "text/plain") (bytes "hi") := by decide +kernel
  have hfits : (noteSite.answer (47 :: bytes "a.txt")).Fits := by
    rw [hanswer, Answer.Fits]
    decide
  have hasked : noteRequest.bytes =
      (handleConnectionHttp .ideal (bytes "a.txt") reply).sent := by
    rw [sent_clientGet ClientEnv.ideal_succeeds hresource]
    simp [noteRequest, ByteSource.bytes]
  rcases site_served noteSite firstSockets hmeets hs harrived hresource hfits
    ClientEnv.ideal_succeeds hasked hreply with ⟨hnil, -⟩ | hgets
  · exact absurd hnil (decide_eq_false_iff_not.mp hsent)
  · rwa [hanswer] at hgets

end SelectServer
