/-
What the middleware chain makes of an outcome.

Whatever the router and the handlers do, the chain turns it into one response.  That response
is uniform if it is a problem when it is an error the chain answers, carries the id that is
logged and is counted with the status it has.

As long as nothing has been sent, all of this holds as soon as the innermost middleware has a
response to give back and the number of the block can be printed.  An exception that gets past it
is logged and counted too, but nobody is left to give the response its id.

A handler that has prepared its response has taken the matter out of the hands of the chain.
What the client has then is the response as it was sent, so it would have to carry the id and the
status the chain goes on to note.  The streams carry no id, and one that fails after it has been
opened is a 200 to the client and a 500 in the log.
-/
import ExecRestApi.Model.Server

namespace ExecRestApi

open Py

/-! ### The chain

The middlewares are functions on handlers, so the chain is one as well, and each part of what
it leaves behind can be said in terms of the outcome of the innermost one.
-/

/-- What the innermost middleware gives back. -/
def mappedOutcome (s : Server) (req : Incoming) (o : Except Failure StreamResponse) :
    Except Failure StreamResponse :=
  o.tryCatch (mapFailure s req)

/-- The chain around a handler that ends with `o`, having sent what it has sent. -/
def served (s : Server) (methods : List String) (req : Incoming)
    (o : Except Failure StreamResponse) (sent : Option StreamResponse) : Ended :=
  appChain s methods (fun _ => ⟨o, sent, [], []⟩) req

section

variable {s : Server} {methods : List String} {req : Incoming}
  {o : Except Failure StreamResponse} {sent : Option StreamResponse} {r : StreamResponse}

theorem served_outcome :
    (served s methods req o sent).outcome =
      ((mappedOutcome s req o).bind (addChainHeaders s methods)).map
        fun r => r.setHeader "X-Request-ID" req.rid := rfl

theorem served_logged :
    (served s methods req o sent).logged =
      [⟨some req.rid, req.method, req.path,
        sentStatus ((mappedOutcome s req o).bind (addChainHeaders s methods))⟩] := rfl

theorem served_counted :
    (served s methods req o sent).counted =
      if s.metrics then [⟨req.method, pathTemplate req, sentStatus (mappedOutcome s req o)⟩]
      else [] := rfl

/-! ### Headers

A header is set and never removed.  The headers about the chain are set only if they can be
printed, and otherwise the middleware raises.
-/

theorem header?_setHeader (name value : String) :
    (r.setHeader name value).header? name = some value := by
  show Dict.lookupIn name (Dict.setIn name value r.headers) = some value
  rw [Dict.lookupIn_setIn, if_pos rfl]

/-- The number of the head block can be printed. -/
def HeadFits (s : Server) : Prop := ∀ n, s.chainHead = some n → strFits n = true

/-- `r` but for its headers. -/
structure SameButHeaders (r r' : StreamResponse) : Prop where
  status : r'.status = r.status
  content : r'.content = r.content

theorem SameButHeaders.refl (r : StreamResponse) : SameButHeaders r r := ⟨rfl, rfl⟩

theorem SameButHeaders.setHeader {r' : StreamResponse} (h : SameButHeaders r r')
    (name value : String) : SameButHeaders r (r'.setHeader name value) :=
  ⟨h.status, h.content⟩

/-- The headers of the chain are added if the number of the block can be printed. -/
theorem addChainHeaders_cases (s : Server) (methods : List String) (r : StreamResponse) :
    (HeadFits s ∧ ∃ r', addChainHeaders s methods r = .ok r' ∧ SameButHeaders r r') ∨
      (¬ HeadFits s ∧ ∃ e, addChainHeaders s methods r = .error (.exc e)) := by
  have hmethods : SameButHeaders r
      (if methods.isEmpty then r else r.setHeader "X-Upstream-Method" (",".intercalate methods)) := by
    split_ifs
    · exact .refl r
    · exact (SameButHeaders.refl r).setHeader _ _
  unfold addChainHeaders HeadFits
  cases s.chainHead with
  | none => exact .inl ⟨nofun, _, rfl, hmethods⟩
  | some n =>
      dsimp only
      by_cases hfits : strFits n = true
      · left
        refine ⟨fun m hm => ?_, _, ?_, hmethods.setHeader "X-Block-Height" (String.ofList (intText n))⟩
        · injection hm with hm
          rw [← hm]
          exact hfits
        · rw [strInt, if_pos hfits]
      · right
        refine ⟨fun h => hfits (h n rfl), .valueError, ?_⟩
        rw [strInt, if_neg hfits]

/-! ### The innermost middleware

It has a problem for most of what a handler raises.  What gets past it are the exceptions of
the HTTP library, and what printing a problem raises.
-/

/-- What it has an answer for. -/
def Mapped : Failure → Prop
  | .http _ => False
  | .exc (.jsonRpcError e) => (mapJsonrpcError e).fits = true
  | _ => True

/-- A list of texts can be printed. -/
theorem itemsFit_texts (texts : List String) : Json.itemsFit (texts.map .str) = true := by
  induction texts with
  | nil => rfl
  | cons text texts ih => exact ih

/-- It answers with a problem about the path, whenever that can be printed, or passes on what it
caught. -/
theorem mapFailure_cases (s : Server) (req : Incoming) (f : Failure) :
    (¬ Mapped f ∧ mapFailure s req f = .error f) ∨
      ∃ p, mapFailure s req f = respondProblem p ∧ p.inst = some req.path ∧
        (Mapped f ↔ p.fits = true) := by
  cases f with
  | notFound =>
      refine .inr ⟨_, rfl, rfl, iff_of_true trivial ?_⟩
      show Json.intsFit (.obj [("availableUrls", .arr ((availableUrlTemplates s).map .str))]) = true
      simp only [Json.intsFit, Json.fieldsFit, Bool.and_true]
      exact itemsFit_texts _
  | http x => exact .inl ⟨id, rfl⟩
  | exc e =>
      cases e with
      | jsonRpcError e => exact .inr ⟨_, rfl, rfl, Iff.rfl⟩
      | upstreamError msg =>
          exact .inr ⟨upstreamProblem req.path msg, rfl, rfl, iff_of_true trivial rfl⟩
      | _ => exact .inr ⟨internalProblem req.path, rfl, rfl, iff_of_true trivial rfl⟩

/-- What it answers itself is a problem about the path. -/
theorem mapFailure_ok {f : Failure} (h : mapFailure s req f = .ok r) :
    ∃ p, r.content = .body (.problem p) ∧ p.status = r.status ∧
      p.inst = some req.path := by
  rcases mapFailure_cases s req f with ⟨-, hpass⟩ | ⟨p, hanswer, hinst, -⟩
  · rw [hpass] at h
    cases h
  · rw [hanswer] at h
    unfold respondProblem printProblem at h
    by_cases hfits : p.fits = true
    · rw [if_pos hfits] at h
      injection h with h
      rw [← h]
      exact ⟨p, rfl, rfl, hinst⟩
    · rw [if_neg hfits] at h
      cases h

theorem mapped_iff {f : Failure} : Mapped f ↔ ∃ r, mapFailure s req f = .ok r := by
  rcases mapFailure_cases s req f with ⟨hnot, hpass⟩ | ⟨p, hanswer, -, hfits⟩
  · rw [hpass]
    exact iff_of_false hnot nofun
  · rw [hfits, hanswer]
    unfold respondProblem printProblem
    split_ifs with h
    · exact iff_of_true h ⟨_, rfl⟩
    · exact iff_of_false h nofun

/-! ### Uniform responses

Three cases are told apart: something was sent, nothing was and there is a response to give
back, or there is none.
-/

/-- The one response the client gets to a request whose handling ends with `o`. -/
def answered (s : Server) (methods : List String) (req : Incoming)
    (o : Except Failure StreamResponse) (sent : Option StreamResponse) : StreamResponse :=
  seen (served s methods req o sent)

/-- The response is a problem about the path. -/
def ProblemAbout (req : Incoming) (r : StreamResponse) : Prop :=
  ∃ p, r.content = .body (.problem p) ∧ p.status = r.status ∧ p.inst = some req.path

/-- The response is a problem about the path if it is an error that the handler did not return, it
carries the id that the one line of the log has, and it is counted once, with its status. -/
structure Uniform (s : Server) (methods : List String) (req : Incoming)
    (o : Except Failure StreamResponse) (sent : Option StreamResponse) : Prop where
  problem : ∀ f, o = .error f → 400 ≤ (answered s methods req o sent).status →
    ProblemAbout req (answered s methods req o sent)
  traced : ∃ line rid, (served s methods req o sent).logged = [line] ∧ line.requestId = some rid ∧
    (answered s methods req o sent).header? "X-Request-ID" = some rid
  counted : (served s methods req o sent).counted =
    if s.metrics then [⟨req.method, pathTemplate req, (answered s methods req o sent).status⟩]
    else []

/-- A response that is sent before the handler ends is right as it is: it has the id, and the status
that the chain goes on to note. -/
structure SentRight (s : Server) (req : Incoming) (o : Except Failure StreamResponse)
    (r : StreamResponse) : Prop where
  traced : r.header? "X-Request-ID" = some req.rid
  status : s.metrics = true → sentStatus (mappedOutcome s req o) = r.status
  problem : ∀ f, o = .error f → 400 ≤ r.status → ProblemAbout req r

/-- The outcomes that the chain has a uniform response to. -/
def Covered (s : Server) (req : Incoming) (o : Except Failure StreamResponse) :
    Option StreamResponse → Prop
  | some r => SentRight s req o r
  | none => HeadFits s ∧ ∀ f, o = .error f → Mapped f

/-- What was sent is what the client has. -/
theorem uniform_of_sent : Uniform s methods req o (some r) ↔ SentRight s req o r := by
  have hanswered : answered s methods req o (some r) = r := rfl
  constructor
  · intro h
    obtain ⟨line, rid, hline, hrid, hheader⟩ := h.traced
    have hcounted := h.counted
    rw [served_counted, hanswered] at hcounted
    rw [served_logged] at hline
    injection hline with hline
    rw [← hline] at hrid
    injection hrid with hrid
    refine ⟨?_, fun hmetrics => ?_, h.problem⟩
    · rw [hrid]
      exact hheader
    · rw [if_pos hmetrics, if_pos hmetrics] at hcounted
      injection hcounted with hcounted
      injection hcounted
  · intro h
    refine ⟨h.problem, ⟨_, _, served_logged, rfl, h.traced⟩, ?_⟩
    rw [served_counted, hanswered]
    split_ifs with hmetrics
    · rw [h.status hmetrics]
    · rfl

/-- A response that aiohttp makes up has no id. -/
theorem header?_finished_error (f : Failure) :
    (finished (.error f)).header? "X-Request-ID" = none := by
  have hstream : ∀ x : HttpException, x.stream.header? "X-Request-ID" = none := by
    intro x
    unfold HttpException.stream StreamResponse.header?
    dsimp only
    split_ifs <;> rfl
  cases f with
  | notFound => exact hstream _
  | http x => exact hstream x
  | exc e => exact hstream _

/-- An exception that leaves the chain is answered without an id. -/
theorem not_uniform_of_error {f : Failure}
    (h : (mappedOutcome s req o).bind (addChainHeaders s methods) = .error f) :
    ¬ Uniform s methods req o none := by
  intro huniform
  obtain ⟨line, rid, -, -, hid⟩ := huniform.traced
  have hanswered : answered s methods req o none = finished (.error f) := by
    show finished (served s methods req o none).outcome = _
    rw [served_outcome, h]
    rfl
  rw [hanswered, header?_finished_error] at hid
  cases hid

/-- What the innermost middleware has given back is given to the client. -/
theorem uniform_of_mapped (hmapped : mappedOutcome s req o = .ok r)
    (hproblem : ∀ f, o = .error f → ProblemAbout req r) :
    Uniform s methods req o none ↔ HeadFits s := by
  rcases addChainHeaders_cases s methods r with ⟨hfits, r', hadd, hsame⟩ | ⟨hfits, e, hadd⟩
  · have hanswered : answered s methods req o none = r'.setHeader "X-Request-ID" req.rid := by
      show finished (served s methods req o none).outcome = _
      rw [served_outcome, hmapped]
      show finished ((addChainHeaders s methods r).map _) = _
      rw [hadd]
      rfl
    have hfinal := hsame.setHeader "X-Request-ID" req.rid
    rw [← hanswered] at hfinal
    refine iff_of_true ⟨fun f hf _ => ?_, ⟨_, req.rid, served_logged, rfl, ?_⟩, ?_⟩ hfits
    · obtain ⟨p, hcontent, hp, hinst⟩ := hproblem f hf
      exact ⟨p, hfinal.content.trans hcontent, hp.trans hfinal.status.symm, hinst⟩
    · rw [hanswered]
      exact header?_setHeader _ _
    · rw [served_counted, hmapped, hfinal.status]
      rfl
  · refine iff_of_false (not_uniform_of_error (f := .exc e) ?_) hfits
    rw [hmapped]
    exact hadd

/-- **When the response is uniform.** -/
theorem uniform_iff (s : Server) (methods : List String) (req : Incoming)
    (o : Except Failure StreamResponse) (sent : Option StreamResponse) :
    Uniform s methods req o sent ↔ Covered s req o sent := by
  cases sent with
  | some r => exact uniform_of_sent
  | none =>
      cases o with
      | ok r =>
          have houtcome : mappedOutcome s req (.ok r) = .ok r := rfl
          rw [uniform_of_mapped houtcome fun f hf => by cases hf]
          exact ⟨fun hfits => ⟨hfits, fun f hf => by cases hf⟩, fun h => h.1⟩
      | error f =>
          by_cases hmapped : Mapped f
          · obtain ⟨r, hr⟩ : ∃ r, mapFailure s req f = .ok r := mapped_iff.mp hmapped
            have houtcome : mappedOutcome s req (.error f) = .ok r := hr
            rw [uniform_of_mapped houtcome fun _ _ => mapFailure_ok hr]
            refine ⟨fun hfits => ⟨hfits, fun f' hf' => ?_⟩, fun h => h.1⟩
            cases hf'
            exact hmapped
          · refine iff_of_false ?_ fun h => hmapped (h.2 f rfl)
            cases hmap : mapFailure s req f with
            | ok r => exact absurd (mapped_iff.mpr ⟨r, hmap⟩) hmapped
            | error f' =>
                refine not_uniform_of_error (f := f') ?_
                show ((mapFailure s req f).bind _) = _
                rw [hmap]
                rfl

end

/-- The server of a proxy that has just started. -/
def freshServer : Server := { resources := ["/call", "/call/"], metrics := true, chainHead := none }

/-- A request with a verb that its path does not have. -/
def wrongVerb : Incoming :=
  { method := "GET", path := "/call", idHeader := some "a", uuid := "b", resource := none }

/-- **A wrong verb is answered with plain text and without the id.** -/
theorem not_uniform : ¬ Uniform freshServer [] wrongVerb
    (.error (.http ⟨405, "Method Not Allowed", ["POST"]⟩)) none := by
  intro h
  obtain ⟨p, hcontent, -⟩ := h.problem _ rfl (by decide)
  cases hcontent

end ExecRestApi
