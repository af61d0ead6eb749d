import SelectServer.Client.HttpClient
import SelectServer.Server.HeaderHeap

/-!
# What the HTTP client leaves on the heap

`handle_connection_http` with what it does to the heap: the path, the request with its header
array, the buffers of the send, and the response. Every exit frees the messages it has, and the
text of the request's headers, for which `serialize_headers` has allocated a block, stays behind
in each of them (`client_leaves_headers`).
-/

namespace SelectServer

open CLib Systems

/-- The one header of the client's request. -/
def hostHeader : Header := ⟨bytes "Host", defaultHost⟩

/-- `handle_connection_http` on the heap. The file that it opens is not a block of its own. -/
def handleConnectionHttpOn (env : ClientEnv) (resource : List UInt8)
    (socket : ByteSource UInt8) : HeapM ClientRun :=
  if env.formattedResource then do
    let formattedResource ← malloc
    let headers ← createHeadersOn (fun _ => env.addHeader) env.headers [hostHeader]
    match if env.request then completeArray headers else none with
    | none => failure
    | some array => do
      let request ← createHttpRequestOn defaultHttpMethod (47 :: resource) defaultHttpVersion array
      free formattedResource
      let sent ← sendHttpRequestOn env.serialize request.plain env.script
      if sent.1 < 0 then do
        freeHttpRequest (some request)
        pure ⟨some (-1), sent.2, none⟩
      else
        match ← receiveHttpResponseOn env.receive socket with
        | (none, _) => do
          freeHttpRequest (some request)
          pure ⟨some (-1), sent.2, none⟩
        | (some response, _) =>
          match saveResponse env request.line.uri resource response.plain with
          | none => failure
          | some saved => do
            freeHttpRequest (some request)
            freeHttpResponse (some response)
            pure ⟨some 0, sent.2, saved⟩
  else pure ⟨some (-1), [], none⟩

section

variable {env : ClientEnv} {resource : List UInt8} {socket : ByteSource UInt8}

/-- A request that is created has its header. -/
theorem clientRequest_eq_some {request : HTTPRequest}
    (h : clientRequest env resource = some request) :
    ∃ arr, addHeaders (fun _ => env.addHeader) 0
        ⟨if env.headers then some (createHeaders initialHeaderCount) else none, 0,
          initialHeaderCount⟩ [hostHeader] = some arr ∧
      arr.live = some [hostHeader] ∧
      request = createHttpRequest defaultHttpMethod (47 :: resource) defaultHttpVersion
        [hostHeader] none := by
  obtain ⟨arr, harr, hrequest⟩ := Option.bind_eq_some_iff.mp h
  obtain ⟨headers, hlive, rfl⟩ := Option.map_eq_some_iff.mp hrequest
  have hheaders : headers = [hostHeader] := by
    cases hcreated : env.headers with
    | false => simp [hcreated, addHeaders] at harr
    | true =>
      have hpacks := addHeaders_packs (fun _ => env.addHeader) [hostHeader] 0 createHeaders_packs
      simp only [hcreated, if_true] at harr
      simp only [addPackedHeaders, PackedHeaders.add] at hpacks
      obtain ⟨arr', harr', hpacks⟩ := hpacks
      obtain rfl := Option.some.inj (harr.symm.trans harr')
      rw [hpacks.live] at hlive
      -- the slot of `create_headers` is filled, or it is left over
      cases hcopies : env.addHeader.copies with
      | false => simp [hcopies] at hlive
      | true => simpa [hcopies] using hlive.symm
  rw [hheaders] at hlive ⊢
  exact ⟨arr, harr, hlive, rfl⟩

/-- The text of the one header is always there, when there is memory for it. -/
theorem serializeHeaders_hostHeader_returns (alloc : Bool) (junk : Nat → UInt8) :
    (serializeHeaders alloc junk [hostHeader]).returns = alloc := by
  cases alloc with
  | false => simp [serializeHeaders, Outcome.returns]
  | true =>
    rw [serializeHeaders_of_lt (by decide)]
    rfl

/-- Every run of the client that is defined, whatever fails and whatever the server answers,
leaves the text of its request's headers on the heap, if it has come to be, and nothing else. -/
theorem client_leaves_headers (h : (handleConnectionHttp env resource socket).ret ≠ none) :
    Owns 0 (handleConnectionHttpOn env resource socket) fun run O =>
      run = handleConnectionHttp env resource socket ∧
        O.card = if env.formattedResource && env.headersBuffer then 1 else 0 := by
  unfold handleConnectionHttpOn
  unfold handleConnectionHttp at h ⊢
  cases hformatted : env.formattedResource with
  | false => exact Owns.pure ⟨rfl, rfl⟩
  | true =>
    simp only [hformatted, if_true] at h ⊢
    cases hrequest : if env.request then clientRequest env resource else none with
    | none => simp [hrequest] at h
    | some request =>
      simp only [hrequest] at h ⊢
      obtain ⟨halloc, hclient⟩ := Option.ite_none_right_eq_some.mp hrequest
      obtain ⟨arr, harr, hlive, rfl⟩ := clientRequest_eq_some hclient
      apply Owns.malloc_bind
      intro formattedResource
      apply (owns_createHeaders_of_live harr hlive).call
      rintro p O ⟨array, hcomplete, harray, rfl⟩
      simp only [if_pos halloc, hcomplete]
      have hcreate := (owns_createHttpRequest defaultHttpMethod (47 :: resource)
        defaultHttpVersion array).frame ({formattedResource} + 0)
      apply hcreate.bind
      rintro held O ⟨O', rfl, hplain, rfl⟩
      rw [harray] at hplain
      -- the path is freed once the request has its copy
      rw [add_left_comm, add_zero]
      apply Owns.free_bind
      rw [← hplain] at h ⊢
      cases hsend : sendHttpRequest env.serialize held.plain env.script with
      | none => simp [hsend] at h
      | some sent =>
        apply (owns_sendHttpRequest hsend).call
        rintro sent' text ⟨rfl, hcard⟩
        -- the text of the headers is there if its `malloc` has succeeded
        have htext : text.card = if env.headersBuffer then 1 else 0 := by
          have hheaders : held.plain.headers = [hostHeader] := congrArg (·.headers) hplain
          rwa [hheaders, ClientEnv.serialize, serializeHeaders_hostHeader_returns] at hcard
        simp only [hsend, Bool.true_and] at h ⊢
        -- each exit from here on frees the messages it has, and leaves the text
        rw [add_comm text]
        by_cases hfailed : sent'.1 < 0
        · simp only [if_pos hfailed]
          exact owns_freeHttpMessage (Owns.pure ⟨rfl, htext⟩) _
        · simp only [if_neg hfailed] at h ⊢
          -- a defined run has received without a fault
          have hreceive : ∀ f, (receiveHttpResponse env.receive socket).outcome ≠ .fault f := by
            intro f hfault
            simp [hfault] at h
          apply (owns_receiveHttpResponse hreceive).call
          rintro ⟨response, rest⟩ O ⟨houtcome, -, rfl, -⟩
          simp only [houtcome] at h ⊢
          cases response with
          | none =>
            rw [httpBlocks, zero_add]
            exact owns_freeHttpMessage (Owns.pure ⟨rfl, htext⟩) _
          | some response =>
            -- the file is named after the URI of the request
            have huri : held.line.uri = 47 :: resource := congrArg (·.line.uri) hplain
            simp only [Option.elim_some, HTTPMessage.message_raw, Option.bind_some, huri] at h ⊢
            have hplainUri : held.plain.line.uri = 47 :: resource := huri
            rw [hplainUri] at h ⊢
            cases hsaved : saveResponse env (47 :: resource) resource response.plain with
            | none => simp [hsaved] at h
            | some saved =>
              rw [add_left_comm]
              exact owns_freeHttpMessage (owns_freeHttpMessage (Owns.pure ⟨rfl, htext⟩) _) _

/-- A client that receives an answer. -/
theorem client_leaves_headers_notFound :
    (handleConnectionHttp .ideal (bytes "a.txt")
        ⟨[bytes "HTTP/1.1 404 Not Found\r\n\r\n"], .closed⟩).ret = some 0 ∧
      Owns 0 (handleConnectionHttpOn .ideal (bytes "a.txt")
          ⟨[bytes "HTTP/1.1 404 Not Found\r\n\r\n"], .closed⟩) fun run O =>
        run = handleConnectionHttp .ideal (bytes "a.txt")
            ⟨[bytes "HTTP/1.1 404 Not Found\r\n\r\n"], .closed⟩ ∧ O.card = 1 := by
  have hret : (handleConnectionHttp .ideal (bytes "a.txt")
      ⟨[bytes "HTTP/1.1 404 Not Found\r\n\r\n"], .closed⟩).ret = some 0 := by
    decide +kernel
  exact ⟨hret, client_leaves_headers (by rw [hret]; exact Option.some_ne_none _)⟩

end

end SelectServer
