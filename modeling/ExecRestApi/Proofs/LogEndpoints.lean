/-
The three endpoints for logs mean the same.

`GET /logs` reads its filter from the query, `POST /logs/search` from a body and
`GET /streams/logs` from the query again, each with a parser of its own.  `LogQuery` is what a
client may ask of any of them, and `AsQuery` and `AsBody` say how it is written down.  The
parsers agree on it, and from there on the two handlers are the same program but for the paths
in their problems and links.

Agreement is said of programs and not of runs (`Agrees`): at each call the two ask the same,
and for every reply they go on in agreement.  So nothing is assumed of the upstream, and what
it answers to the one it may answer to the other.
-/
import ExecRestApi.Lib.HexBytes
import ExecRestApi.Model.Streams
import ExecRestApi.Proofs.CursorSafety

namespace ExecRestApi

open Py Interaction
open Prog (Runs Agrees SameEnd agrees_refl agrees_bind agrees_bind_left Asks asks_pure asks_bind
  asks_ask asks_ofExcept asks_lift_bind asks_throw)

/-! ### What is asked

A query has addresses, topics and a limit.  A topic may be left open, and each of the three
ways to write the query down has its own form for that.
-/

/-- A filter that all three endpoints can express, and the page it is asked with. -/
structure LogQuery where
  addresses : List String
  /-- A position that any topic fits is `none`. -/
  topics : List (Option String)
  fromBlock : Option String
  toBlock : Option String
  limit : Option String
  addresses_valid : ∀ a ∈ addresses, fixedHexRe 40 a.toList = true
  topics_valid : ∀ t ∈ topics, ∀ s, t = some s → topicRe s = true
  four : topics.length ≤ 4
  last : topics.getLast? ≠ some none

/-- The names of the parameters for the topics. -/
def topicNames : List String := ["topic0", "topic1", "topic2", "topic3"]

/-- The parameters of a query for the filter. -/
structure FilterAsQuery (q : LogQuery) (req : Request) : Prop where
  /-- Without addresses the parameter may be missing. -/
  address : req.queryGet "address" = some (",".intercalate q.addresses) ∨
    (q.addresses = [] ∧ req.queryGet "address" = none)
  topic : ∀ (i : Nat) (name : String), topicNames[i]? = some name →
    req.queryGet name = (q.topics[i]?).join

/-- The request of `GET /logs`. -/
structure AsQuery (q : LogQuery) (req : Request) : Prop extends FilterAsQuery q req where
  cursor : req.queryGet "cursor" = none
  limit : req.queryGet "limit" = q.limit
  fromBlock : req.queryGet "fromBlock" = q.fromBlock
  toBlock : req.queryGet "toBlock" = q.toBlock

/-- A topic as JSON. -/
def topicJson : Option String → Json
  | none => .null
  | some s => .str s

/-- The request of `POST /logs/search`. -/
structure AsBody (q : LogQuery) (req : Request) (body : List (String × Json)) : Prop where
  reads : req.body = .ok (.obj body)
  cursor : req.queryGet "cursor" = none
  limit : req.queryGet "limit" = q.limit
  address : Json.field? body "address" = some (.arr (q.addresses.map .str)) ∨
    (q.addresses = [] ∧ Json.field? body "address" = none)
  topics : Json.field? body "topics" = some (.arr (q.topics.map topicJson)) ∨
    (q.topics = [] ∧ Json.field? body "topics" = none)
  fromBlock : Json.field? body "fromBlock" = q.fromBlock.map .str
  toBlock : Json.field? body "toBlock" = q.toBlock.map .str

/-- The filter that is meant. -/
def LogQuery.filter (q : LogQuery) : List (String × Json) :=
  buildFilter (if q.addresses.isEmpty then none else some (q.addresses.map lower))
    (q.topics.map fun t => topicJson (t.map lower))

/-! ### The parsers

The query string has a comma between addresses and a parameter for each topic.  Topics that are
left open at the end are dropped, and those before the last one that is given become `null`.
-/

theorem encodingMsg_address {a : String} (h : fixedHexRe 40 a.toList = true) :
    encodingMsg (mapAddressLowercase (.str a)) = .ok (lower a) := by
  rw [mapAddressLowercase, if_pos h]
  rfl

/-- The characters of a hexadecimal text of fixed length. -/
theorem mem_of_fixedHexRe {n : Nat} {cs : List Char} (h : fixedHexRe n cs = true) :
    ∀ c ∈ cs, c = 'x' ∨ isHex c = true := by
  unfold fixedHexRe at h
  split at h
  · rename_i cs
    rw [Bool.and_eq_true, List.all_eq_true] at h
    intro c hc
    rcases List.mem_cons.mp hc with rfl | hc
    · exact .inr (by decide)
    · rcases List.mem_cons.mp hc with rfl | hc
      · exact .inl rfl
      · exact .inr (h.2 c hc)
  · cases h

theorem isSpace_of_isHex {c : Char} (h : c = 'x' ∨ isHex c = true) : isSpace c = false := by
  rcases h with rfl | h
  · decide
  · have hsmall : ∀ n, n < 128 → isHex (Char.ofNat n) = true → isSpace (Char.ofNat n) = false := by
      decide
    have hc := hsmall c.toNat (toNat_lt_of_isHex h)
    rw [Char.ofNat_toNat] at hc
    exact hc h

theorem mapM_eq_ok_map {α β : Type} {f : α → Except Msg β} {g : α → β} {xs : List α}
    (h : ∀ x ∈ xs, f x = .ok (g x)) : xs.mapM f = .ok (xs.map g) := by
  induction xs with
  | nil => rfl
  | cons x xs ih =>
      rw [List.mapM_cons, h x List.mem_cons_self, ih fun y hy => h y (List.mem_cons_of_mem _ hy)]
      rfl

/-- The addresses of a query, read piece by piece. -/
theorem pieces_of_addresses {addresses : List String} (hne : addresses ≠ [])
    (hvalid : ∀ a ∈ addresses, fixedHexRe 40 a.toList = true) :
    ((splitOn ',' (",".intercalate addresses).toList).mapM fun piece =>
      encodingMsg (mapAddressLowercase (.str (String.ofList (strip piece))))) =
        .ok (addresses.map lower) := by
  have hchars : ∀ cs ∈ addresses.map String.toList, ∀ c ∈ cs, c = 'x' ∨ isHex c = true := by
    intro cs hcs
    obtain ⟨a, ha, rfl⟩ := List.mem_map.mp hcs
    exact mem_of_fixedHexRe (hvalid a ha)
  have hsplit : splitOn ',' (",".intercalate addresses).toList = addresses.map String.toList := by
    rw [String.toList_intercalate]
    refine splitOn_intercalate (by simpa using hne) ?_
    intro cs hcs hcomma
    rcases hchars cs hcs ',' hcomma with h | h <;> revert h <;> decide
  rw [hsplit, List.mapM_map]
  refine mapM_eq_ok_map fun a ha => ?_
  have hstrip : strip a.toList = a.toList :=
    strip_of_no_space fun c hc => isSpace_of_isHex (mem_of_fixedHexRe (hvalid a ha) c hc)
  show encodingMsg (mapAddressLowercase (.str (String.ofList (strip a.toList)))) = _
  rw [hstrip, String.ofList_toList, encodingMsg_address (hvalid a ha)]

theorem intercalate_ne_empty {addresses : List String} (hne : addresses ≠ [])
    (hvalid : ∀ a ∈ addresses, fixedHexRe 40 a.toList = true) : ",".intercalate addresses ≠ "" := by
  intro hempty
  have hpieces := pieces_of_addresses hne hvalid
  rw [hempty] at hpieces
  cases hpieces

/-- How many topics are kept, and from where on. -/
def keptAfter : Nat → Nat → List (Option String) → Nat
  | _, kept, [] => kept
  | n, kept, none :: ts => keptAfter (n + 1) kept ts
  | n, _, some _ :: ts => keptAfter (n + 1) (n + 1) ts

/-- The loop over the topics. -/
theorem foldlM_topicStep {req : Request} {names : List String} {ts : List (Option String)}
    (h : List.Forall₂ (fun name t => req.queryGet name = t ∧ ∀ s, t = some s → topicRe s = true)
      names ts) : ∀ {acc : List Json} {kept : Nat},
    names.foldlM (topicStep req) (acc, kept) =
      .ok (acc ++ ts.map fun t => topicJson (t.map lower), keptAfter acc.length kept ts) := by
  induction h with
  | nil =>
      intro acc kept
      rw [List.map_nil, List.append_nil]
      rfl
  | @cons name t names ts hname _ ih =>
      intro acc kept
      rw [List.foldlM_cons, topicStep, hname.1]
      cases t with
      | none =>
          show names.foldlM (topicStep req) (acc ++ [.null], kept) = _
          rw [ih, List.length_append, List.append_assoc]
          rfl
      | some s =>
          dsimp only
          rw [if_pos (hname.2 s rfl)]
          show names.foldlM (topicStep req) (acc ++ [.str (lower s)], acc.length + 1) = _
          rw [ih, List.length_append, List.append_assoc]
          rfl

theorem keptAfter_replicate (n kept k : Nat) : keptAfter n kept (List.replicate k none) = kept := by
  induction k generalizing n with
  | zero => rfl
  | succ k ih => exact ih (n + 1)

/-- All topics up to the last one that is not `none` are kept. -/
theorem keptAfter_append {ts : List (Option String)} : ts.getLast? ≠ some none →
    ∀ n kept k, keptAfter n kept (ts ++ List.replicate k none) =
      if ts = [] then kept else n + ts.length := by
  induction ts with
  | nil =>
      intro _ n kept k
      exact keptAfter_replicate n kept k
  | cons t ts ih =>
      intro hlast n kept k
      rw [if_neg (List.cons_ne_nil t ts), List.length_cons]
      have hrest : ts.getLast? ≠ some none := by
        cases ts with
        | nil => nofun
        | cons t' ts => exact hlast
      cases t with
      | none =>
          have hne : ts ≠ [] := by
            intro hnil
            rw [hnil] at hlast
            exact hlast rfl
          show keptAfter (n + 1) kept (ts ++ _) = _
          rw [ih hrest, if_neg hne]
          omega
      | some s =>
          show keptAfter (n + 1) (n + 1) (ts ++ _) = _
          rw [ih hrest]
          split_ifs with hnil
          · rw [hnil]
            rfl
          · omega

section

variable {q : LogQuery} {req : Request}

/-- The loop over the topics of a query. -/
theorem topicFold_eq (h : FilterAsQuery q req) :
    ∃ padded, topicNames.foldlM (topicStep req) ([], 0) = .ok (padded, q.topics.length) ∧
      padded.take q.topics.length = q.topics.map fun t => topicJson (t.map lower) := by
  have hfour := q.four
  -- the missing positions are those of missing parameters
  have hnames : List.Forall₂ (fun name t => req.queryGet name = t ∧
      ∀ s, t = some s → topicRe s = true) topicNames
        (q.topics ++ List.replicate (4 - q.topics.length) none) := by
    refine List.forall₂_iff_get.mpr ⟨?_, ?_⟩
    · rw [List.length_append, List.length_replicate]
      show 4 = _
      omega
    · intro i hi hi'
      have hget := h.topic i (topicNames.get ⟨i, hi⟩) (List.getElem?_eq_getElem hi)
      by_cases hlt : i < q.topics.length
      · have hsame : (q.topics ++ List.replicate (4 - q.topics.length) none).get ⟨i, hi'⟩
            = q.topics[i] := List.getElem_append_left hlt
        rw [List.getElem?_eq_getElem hlt] at hget
        rw [hsame]
        exact ⟨hget, q.topics_valid _ (List.getElem_mem hlt)⟩
      · have hsame : (q.topics ++ List.replicate (4 - q.topics.length) none).get ⟨i, hi'⟩
            = none := by
          rw [List.get_eq_getElem, List.getElem_append_right (Nat.le_of_not_lt hlt),
            List.getElem_replicate]
        rw [List.getElem?_eq_none (by omega)] at hget
        rw [hsame]
        exact ⟨hget, nofun⟩
  refine ⟨_, by rw [foldlM_topicStep hnames, keptAfter_append q.last]; congr 2; simp_all, ?_⟩
  rw [List.nil_append, List.map_append]
  exact List.take_left' (List.length_map _)

theorem parseTopics_eq (h : FilterAsQuery q req) :
    parseTopics req = .ok (q.topics.map fun t => topicJson (t.map lower)) := by
  obtain ⟨padded, hfold, htake⟩ := topicFold_eq h
  unfold parseTopics
  rw [show ["topic0", "topic1", "topic2", "topic3"] = topicNames from rfl, hfold, ← htake]
  rfl

theorem parseAddressesCsv_eq (h : FilterAsQuery q req) :
    parseAddressesCsv (req.queryGet "address") =
      .ok (if q.addresses.isEmpty then none else some (q.addresses.map lower)) := by
  by_cases hne : q.addresses = []
  · have hnone : parseAddressesCsv (req.queryGet "address") = .ok none := by
      rcases h.address with haddr | ⟨-, haddr⟩
      · rw [haddr, hne]
        rfl
      · rw [haddr]
        rfl
    rw [hnone, hne]
    rfl
  · have haddr : req.queryGet "address" = some (",".intercalate q.addresses) := by
      rcases h.address with haddr | ⟨hempty, -⟩
      · exact haddr
      · exact absurd hempty hne
    rw [haddr, parseAddressesCsv, if_neg (intercalate_ne_empty hne q.addresses_valid),
      pieces_of_addresses hne q.addresses_valid, if_neg (by simpa using hne)]
    rfl

/-- **The stream reads the same filter.** -/
theorem parseLogFilter_eq (h : FilterAsQuery q req) :
    Stream.parseLogFilter req = .ok q.filter := by
  obtain ⟨padded, hfold, htake⟩ := topicFold_eq h
  have htopics : (q.topics.map fun t => topicJson (t.map lower)).isEmpty = q.topics.isEmpty :=
    List.isEmpty_map
  unfold Stream.parseLogFilter LogQuery.filter buildFilter
  rw [show ["topic0", "topic1", "topic2", "topic3"] = topicNames from rfl, hfold, htopics]
  -- what the topics add to the addresses
  have hadd : ∀ addressed : List (String × Json),
      (if 0 < q.topics.length then
        addressed ++ [("topics", .arr (padded.take q.topics.length))] else addressed) =
      addressed ++ if q.topics.isEmpty then [] else
        [("topics", .arr (q.topics.map fun t => topicJson (t.map lower)))] := by
    intro addressed
    rw [htake]
    cases q.topics with
    | nil => exact (List.append_nil addressed).symm
    | cons t ts => rfl
  by_cases hne : q.addresses = []
  · rw [hne]
    rcases h.address with haddr | ⟨-, haddr⟩
    · rw [haddr, hne]
      exact congrArg Except.ok (hadd [])
    · rw [haddr]
      exact congrArg Except.ok (hadd [])
  · have haddr : req.queryGet "address" = some (",".intercalate q.addresses) := by
      rcases h.address with haddr | ⟨hempty, -⟩
      · exact haddr
      · exact absurd hempty hne
    rw [haddr, if_neg (show ¬ q.addresses.isEmpty = true by simpa using hne)]
    dsimp only
    rw [if_neg (intercalate_ne_empty hne q.addresses_valid),
      pieces_of_addresses hne q.addresses_valid]
    exact congrArg Except.ok (hadd _)

/-! ### The body

A body is checked and taken as it is, so it has to be what the other parsers make.
-/

variable {body : List (String × Json)}

theorem validateLogfilterAddress_eq (h : AsBody q req body) :
    validateLogfilterAddress ((Json.field? body "address").getD .null) =
      .ok (q.addresses.map lower) := by
  rcases h.address with haddr | ⟨hempty, haddr⟩
  · rw [haddr, Option.getD_some, validateLogfilterAddress, List.mapM_map]
    exact mapM_eq_ok_map fun a ha => encodingMsg_address (q.addresses_valid a ha)
  · rw [haddr, hempty]
    rfl

theorem validateLogfilterTopics_eq (h : AsBody q req body) :
    validateLogfilterTopics ((Json.field? body "topics").getD .null) =
      .ok (q.topics.map fun t => topicJson (t.map lower)) := by
  rcases h.topics with htopics | ⟨hempty, htopics⟩
  · rw [htopics, Option.getD_some, validateLogfilterTopics, List.mapM_map]
    refine mapM_eq_ok_map fun t ht => ?_
    cases t with
    | none => rfl
    | some s =>
        show validateTopicEntry (.str s) = _
        rw [validateTopicEntry, if_pos (q.topics_valid _ ht s rfl)]
        rfl
  · rw [htopics, hempty]
    rfl

end

/-! ### The two handlers

What differs between them is the path, which stands in problems and in links.  Each part of the
handlers agrees with its counterpart up to that.
-/

/-- What a step of the two handlers found: the same, or both have refused with the same status. -/
def SameFound {α : Type} : Response ⊕ α → Response ⊕ α → Prop
  | .inl a, .inl b => a.status = b.status ∧ a.status ≠ 200
  | .inr x, .inr y => x = y
  | _, _ => False

/-- The links of the two responses carry the same cursor, or there are none. -/
def SameCursor (a b : Response) : Prop :=
  (a.header? "Link" = none ∧ b.header? "Link" = none) ∨
    ∃ text, a.header? "Link" = some (nextLink "/logs" text) ∧
      b.header? "Link" = some (nextLink "/logs/search" text)

/-- The same status, and if it is 200 the same body and cursor. -/
structure SameAnswer (a b : Response) : Prop where
  status : a.status = b.status
  page : a.status = 200 → a.body = b.body ∧ SameCursor a b

theorem agrees_refuse {α : Type} {a b : Response} (h : a.status = b.status) (hne : a.status ≠ 200) :
    Agrees SameFound (pure (.inl a) : Handler (Response ⊕ α)) (pure (.inl b)) := ⟨h, hne⟩

/-- The same refusal under two paths. -/
theorem agrees_badRequest {α : Type} (path path' : String) (msg : Msg) :
    Agrees SameFound (pure (.inl (badRequest path msg)) : Handler (Response ⊕ α))
      (pure (.inl (badRequest path' msg))) :=
  agrees_refuse rfl (show 400 ≠ 200 by decide)

theorem agrees_chainReorged {α : Type} (path path' : String) (msg : Msg) :
    Agrees SameFound (pure (.inl (chainReorged path msg)) : Handler (Response ⊕ α))
      (pure (.inl (chainReorged path' msg))) :=
  agrees_refuse rfl (show 409 ≠ 200 by decide)

theorem agrees_found {α : Type} (x : α) :
    Agrees SameFound (pure (.inr x) : Handler (Response ⊕ α)) (pure (.inr x)) := rfl

theorem agrees_unlessAnswered {α β : Type} {s s' : Handler (Response ⊕ α)}
    {f g : α → Handler (Response ⊕ β)} (h : Agrees SameFound s s')
    (hfg : ∀ a, Agrees SameFound (f a) (g a)) :
    Agrees SameFound (unlessAnswered s f) (unlessAnswered s' g) := by
  refine agrees_bind h fun a b hab => ?_
  cases a with
  | inl resp =>
      cases b with
      | inl resp' => exact hab
      | inr y => exact hab.elim
  | inr x =>
      cases b with
      | inl resp' => exact hab.elim
      | inr y =>
          cases hab
          exact hfg x

/-- A first step that issues nothing. -/
theorem agrees_lift_bind {γ δ ε : Type} {S : γ → δ → Prop} (x : Except Exc ε)
    {f : ε → Handler γ} {g : ε → Handler δ} (hfg : ∀ a, Agrees S (f a) (g a)) :
    Agrees S ((liftM x : Handler ε) >>= f) ((liftM x : Handler ε) >>= g) :=
  agrees_bind_left _ hfg

theorem agrees_resolveRange (path path' : String) (fromBid toBid : BlockId) :
    Agrees SameFound (resolveRange path fromBid toBid) (resolveRange path' fromBid toBid) := by
  refine agrees_bind_left _ fun fromResolved => agrees_bind_left _ fun toResolved => ?_
  cases fromResolved with
  | none => exact agrees_badRequest path path' _
  | some fromBlock =>
      cases toResolved with
      | none => exact agrees_badRequest path path' _
      | some toBlock =>
          dsimp only
          split_ifs
          · refine agrees_lift_bind _ fun a => agrees_lift_bind _ fun b => ?_
            exact agrees_badRequest path path' _
          · exact agrees_found _

theorem agrees_requestRange (path path' : String) (fromRaw toRaw : Json) :
    Agrees SameFound (requestRange path fromRaw toRaw) (requestRange path' fromRaw toRaw) := by
  unfold requestRange parseRange
  cases (do
      let fromBid ← parseBlockId fromRaw
      let toBid ← parseBlockId toRaw
      pure (fromBid, toBid) : Except Exc (BlockId × BlockId)) with
  | ok bids => exact agrees_resolveRange path path' bids.1 bids.2
  | error e =>
      cases e with
      | blockIdError msg => exact agrees_badRequest path path' msg
      | _ => rfl

theorem agrees_verifyCursorBoundary (c : Cursor) (path path' : String) :
    Agrees SameFound (verifyCursorBoundary c path) (verifyCursorBoundary c path') := by
  refine agrees_bind_left _ fun rpc => ?_
  split_ifs
  · exact agrees_lift_bind _ fun n => agrees_chainReorged path path' _
  · refine agrees_lift_bind _ fun hash => agrees_lift_bind _ fun hash => ?_
    split_ifs
    · exact agrees_lift_bind _ fun n => agrees_chainReorged path path' _
    · exact agrees_found _

theorem agrees_cursorScan (app : App) (req req' : Request) (raw : String) :
    Agrees SameFound (cursorScan app req raw) (cursorScan app req' raw) := by
  unfold cursorScan
  cases decodeCursor app.recursionLimit raw with
  | ok c =>
      exact agrees_unlessAnswered (agrees_verifyCursorBoundary c req.path req'.path)
        fun _ => agrees_found _
  | error e =>
      cases e with
      | cursorError msg => exact agrees_badRequest req.path req'.path _
      | _ => rfl

/-- The first page of the query and of the body. -/
theorem agrees_firstScan {q : LogQuery} {get post : Request} {body : List (String × Json)}
    (hget : AsQuery q get) (hpost : AsBody q post body) :
    Agrees SameFound (getLogsScan get) (postLogsScan post) := by
  have hraw : ∀ (block : Option String) (default_ : String),
      (block.map Json.str).getD (.str default_) = .str (block.getD default_) := by
    intro block default_
    cases block <;> rfl
  unfold getLogsScan postLogsScan
  rw [hpost.reads, parseAddressesCsv_eq hget.toFilterAsQuery, parseTopics_eq hget.toFilterAsQuery]
  dsimp only
  rw [validateLogfilterAddress_eq hpost, validateLogfilterTopics_eq hpost, hget.fromBlock,
    hget.toBlock, hpost.fromBlock, hpost.toBlock, hraw, hraw]
  dsimp only
  rw [List.isEmpty_map]
  refine agrees_unlessAnswered (agrees_requestRange get.path post.path _ _) fun range => ?_
  exact agrees_found _

/-- The links to the next page. -/
theorem agrees_linkHeader (app : App) (scan : Scan) (result : PaginationResult) :
    Agrees (fun l l' => (l = [] ∧ l' = []) ∨ ∃ text, l = [("Link", nextLink "/logs" text)] ∧
      l' = [("Link", nextLink "/logs/search" text)])
      (linkHeader app "/logs" scan result) (linkHeader app "/logs/search" scan result) := by
  unfold linkHeader
  cases result.nextFromBlock with
  | none => exact .inl ⟨rfl, rfl⟩
  | some b =>
      refine agrees_bind_left _ fun rpc => ?_
      split_ifs
      · exact .inl ⟨rfl, rfl⟩
      · refine agrees_lift_bind _ fun hash => agrees_lift_bind _ fun hash => ?_
        exact agrees_lift_bind _ fun text => .inr ⟨text, rfl, rfl⟩

theorem agrees_answerPage (app : App) (limit : Int) (scan : Scan) :
    Agrees SameAnswer (answerPage app "/logs" limit scan)
      (answerPage app "/logs/search" limit scan) := by
  refine agrees_bind_left _ fun result => agrees_lift_bind _ fun items => ?_
  refine agrees_lift_bind _ fun size => agrees_bind (agrees_linkHeader app scan result) ?_
  intro link link' hlink
  show Agrees SameAnswer (Prog.ofExcept (jsonResponse _ _)) (Prog.ofExcept (jsonResponse _ _))
  unfold jsonResponse
  split_ifs
  · refine ⟨rfl, fun _ => ⟨rfl, ?_⟩⟩
    rcases hlink with ⟨rfl, rfl⟩ | ⟨text, rfl, rfl⟩
    · exact .inl ⟨rfl, rfl⟩
    · exact .inr ⟨text, rfl, rfl⟩
  · rfl

/-- The two handlers, once they agree on the scan. -/
theorem agrees_logsPage {app : App} {get post : Request} {f g : Request → Handler (Response ⊕ Scan)}
    (hlimit : get.queryGet "limit" = post.queryGet "limit")
    (hscan : Agrees SameFound (openScan f app get) (openScan g app post)) :
    Agrees SameAnswer (logsPage "/logs" f app get) (logsPage "/logs/search" g app post) := by
  have hbad : ∀ msg, SameAnswer (badRequest get.path msg) (badRequest post.path msg) :=
    fun msg => ⟨rfl, fun h => absurd h (show (400 : Nat) ≠ 200 by decide)⟩
  have hrequested : (∃ n, requestedLimit app.config get = .inr n ∧
      requestedLimit app.config post = .inr n) ∨
      ∃ msg, requestedLimit app.config get = .inl (badRequest get.path msg) ∧
        requestedLimit app.config post = .inl (badRequest post.path msg) := by
    unfold requestedLimit
    rw [hlimit]
    cases post.queryGet "limit" with
    | none => exact .inl ⟨_, rfl, rfl⟩
    | some raw =>
        dsimp only
        cases int? raw with
        | none => exact .inr ⟨_, rfl, rfl⟩
        | some n =>
            dsimp only
            split_ifs
            · exact .inr ⟨_, rfl, rfl⟩
            · exact .inl ⟨n, rfl, rfl⟩
  unfold logsPage
  rcases hrequested with ⟨n, hn, hn'⟩ | ⟨msg, hmsg, hmsg'⟩
  · rw [hn, hn']
    refine agrees_bind hscan fun a b hab => ?_
    cases a with
    | inl resp =>
        cases b with
        | inl resp' => exact ⟨hab.1, fun h => absurd h hab.2⟩
        | inr scan' => exact hab.elim
    | inr scan =>
        cases b with
        | inl resp' => exact hab.elim
        | inr scan' =>
            cases hab
            exact agrees_answerPage app _ scan
  · rw [hmsg, hmsg']
    exact hbad msg

theorem agrees_pages {app : App} {q : LogQuery} {get post : Request} {body : List (String × Json)}
    (hget : AsQuery q get) (hpost : AsBody q post body) :
    Agrees SameAnswer (getLogs app get) (postLogsSearch app post) := by
  refine agrees_logsPage (hget.limit.trans hpost.limit.symm) ?_
  unfold openScan
  rw [hget.cursor, hpost.cursor]
  exact agrees_firstScan hget hpost

/-- The two handlers on one cursor. -/
theorem agrees_resumed {app : App} {get post : Request} {raw : String}
    (hget : get.queryGet "cursor" = some raw) (hpost : post.queryGet "cursor" = some raw)
    (hlimit : get.queryGet "limit" = post.queryGet "limit") :
    Agrees SameAnswer (getLogs app get) (postLogsSearch app post) := by
  refine agrees_logsPage hlimit ?_
  unfold openScan
  rw [hget, hpost]
  exact agrees_cursorScan app get post raw

/-! ### What is asked of the upstream

Each `eth_getLogs` has the addresses and topics of the query and a range of the scan's own.
`Filtered` says so of one call.
-/

/-- A call for logs is for logs of this filter. -/
def Filtered (filter : List (String × Json)) (c : RpcCall) : Prop :=
  c.method = "eth_getLogs" → ∃ first last : String,
    c.params = [.obj (filter ++ [("fromBlock", .str first), ("toBlock", .str last)])]

theorem filtered_of_ne {filter : List (String × Json)} {c : RpcCall} (h : c.method ≠ "eth_getLogs") :
    Filtered filter c :=
  fun hmethod => absurd hmethod h

section

variable {q : LogQuery}

theorem LogQuery.key_filter {p : String × Json} (h : p ∈ q.filter) :
    p.1 = "address" ∨ p.1 = "topics" := by
  unfold LogQuery.filter buildFilter at h
  rcases List.mem_append.mp h with h | h
  · split at h
    · rw [List.mem_singleton.mp h]
      exact .inl rfl
    · cases h
  · split_ifs at h
    · cases h
    · rw [List.mem_singleton.mp h]
      exact .inr rfl

theorem LogQuery.withoutRange_filter : withoutRange q.filter = q.filter := by
  refine List.filter_eq_self.mpr fun p hp => ?_
  rcases LogQuery.key_filter hp with hkey | hkey <;> rw [hkey] <;> rfl

theorem LogQuery.fetchFilter_filter (first last : Int) :
    fetchFilter q.filter first last =
      q.filter ++ [("fromBlock", .str (hex first)), ("toBlock", .str (hex last))] := by
  have hkeys : ∀ k ∈ q.filter.map Prod.fst, k = "address" ∨ k = "topics" := by
    intro k hk
    obtain ⟨p, hp, rfl⟩ := List.mem_map.mp hk
    exact LogQuery.key_filter hp
  have hfrom : "fromBlock" ∉ q.filter.map Prod.fst := by
    intro hmem
    rcases hkeys _ hmem with h | h <;> simp at h
  have hto : "toBlock" ∉ (q.filter ++ [("fromBlock", Json.str (hex first))]).map Prod.fst := by
    rw [List.map_append, List.mem_append]
    intro hmem
    rcases hmem with hmem | hmem
    · rcases hkeys _ hmem with h | h <;> simp at h
    · simp at hmem
  unfold fetchFilter
  rw [Dict.setIn_of_not_mem hfrom, Dict.setIn_of_not_mem hto, List.append_assoc]
  rfl

theorem filtered_chunkCall (toBlock limit skipUntil : Int) (m n : Nat) :
    Filtered q.filter (chunkCall ⟨q.filter, toBlock, limit, skipUntil⟩ m n) := by
  intro _
  refine ⟨toHex m, toHex n, ?_⟩
  unfold chunkCall
  rw [LogQuery.withoutRange_filter]

theorem asks_resolveBlockId (bid : BlockId) : Asks (Filtered q.filter) (resolveBlockId bid) := by
  unfold resolveBlockId
  cases bid with
  | number n => exact asks_pure _
  | tag t =>
      dsimp only
      split_ifs
      · exact asks_pure _
      · refine asks_bind (asks_call (filtered_of_ne (by simp))) fun head => ?_
        exact asks_lift_bind _ fun n => asks_pure _
      · exact asks_bind (asks_call (filtered_of_ne (by simp))) fun rpc => asks_ofExcept _
  | hash h => exact asks_bind (asks_call (filtered_of_ne (by simp))) fun rpc => asks_ofExcept _

theorem asks_requestRange (path : String) (fromRaw toRaw : Json) :
    Asks (Filtered q.filter) (requestRange path fromRaw toRaw) := by
  unfold requestRange
  refine asks_lift_bind _ fun range => ?_
  cases range with
  | inl resp => exact asks_pure _
  | inr bids =>
      refine asks_bind (asks_resolveBlockId bids.1) fun fromBlock => ?_
      refine asks_bind (asks_resolveBlockId bids.2) fun toBlock => ?_
      cases fromBlock with
      | none => exact asks_pure _
      | some fromBlock =>
          cases toBlock with
          | none => exact asks_pure _
          | some toBlock =>
              dsimp only
              split_ifs
              · exact asks_lift_bind _ fun a => asks_lift_bind _ fun b => asks_pure _
              · exact asks_pure _

/-- Every call for logs of `GET /logs` is for the filter that is meant. -/
theorem asks_getLogs {app : App} {get : Request} (hget : AsQuery q get) :
    Asks (Filtered q.filter) (getLogs app get) := by
  unfold getLogs logsPage
  cases requestedLimit app.config get with
  | inl resp => exact asks_pure _
  | inr requested =>
      unfold openScan getLogsScan unlessAnswered
      rw [hget.cursor, parseAddressesCsv_eq hget.toFilterAsQuery, parseTopics_eq hget.toFilterAsQuery]
      dsimp only
      rw [Prog.bind_assoc]
      refine asks_bind (asks_requestRange _ _ _) fun range => ?_
      cases range with
      | inl resp => exact asks_pure _
      | inr range =>
          refine asks_answerPage (fun n => filtered_of_ne (by simp)) ?_
          exact filtered_chunkCall _ _ _

/-! ### The replay of the stream

The replay asks for the logs after its last id with the filter that the stream was opened with.
-/

/-- A replay asks for logs of this filter only. -/
def ReplaysFiltered (filter : List (String × Json)) (op : StreamIo) : Prop :=
  ∀ c, op = .call c → Filtered filter c

theorem asks_replayCall {filter : List (String × Json)} {method : String} {params : List Json}
    (h : Filtered filter ⟨method, params⟩) :
    Asks (ReplaysFiltered filter) (replayCall method params) := by
  refine asks_ask (fun c hc => ?_) fun r => asks_ofExcept r
  injection hc with hc
  rw [← hc]
  exact h

theorem asks_replayFrame {filter : List (String × Json)} (parts : Except Exc FrameParts) :
    Asks (ReplaysFiltered filter) (replayFrame parts) := by
  refine asks_lift_bind _ fun parts => asks_lift_bind _ fun frame => ?_
  refine asks_ask (fun c hc => by cases hc) fun r => ?_
  cases r with
  | ok v => exact asks_pure ()
  | error e => exact asks_throw e

theorem asks_replayEach {filter : List (String × Json)} (logs : List Json) :
    Asks (ReplaysFiltered filter) (replayEach logs) := by
  induction logs with
  | nil => exact asks_pure ()
  | cons log rest ih => exact asks_bind (asks_replayFrame _) fun _ => ih

theorem asks_replayLogs (window : Int) (id : String) :
    Asks (ReplaysFiltered q.filter) (replayLogs window q.filter id) := by
  unfold replayLogs
  cases idBlock id with
  | none => exact asks_pure ()
  | some lastBlock =>
      have hhead : Asks (ReplaysFiltered q.filter) replayHead := by
        exact asks_bind (asks_replayCall (filtered_of_ne (by simp))) fun head => asks_ofExcept _
      refine asks_bind hhead fun head => ?_
      split_ifs
      · exact asks_pure ()
      · exact asks_replayFrame _
      · refine asks_bind (asks_replayCall fun _ => ?_) fun result => ?_
        · refine ⟨hex (lastBlock + 1), hex head, ?_⟩
          exact congrArg (fun fields => [Json.obj fields]) (LogQuery.fetchFilter_filter _ _)
        · exact asks_lift_bind _ fun logs => asks_replayEach logs

end

/-! ### The three endpoints -/

/-- The two handlers exchange the same with the upstream and then answer the same. -/
def SameRuns (p p' : Handler Response) : Prop :=
  ∀ tr, (∀ out, Runs p tr out → ∃ out', Runs p' tr out' ∧ SameEnd SameAnswer out out') ∧
    ∀ out', Runs p' tr out' → ∃ out, Runs p tr out ∧ SameEnd SameAnswer out out'

theorem sameRuns_of_agrees {p p' : Handler Response} (h : Agrees SameAnswer p p') :
    SameRuns p p' := by
  refine fun tr => ⟨fun out hruns => h.runs hruns, ?_⟩
  intro out' hruns
  obtain ⟨out, hout, hsame⟩ := h.symm.runs hruns
  exact ⟨out, hout, hsame.symm⟩

/-- The stream subscribes to the logs of a filter and replays no others. -/
structure StreamsFiltered (filter : List (String × Json)) (s : Stream) : Prop where
  subscribes : subscribeCall s.kind s.params = ⟨"eth_subscribe", [.str "logs", .obj filter]⟩
  replays : ∀ replay, s.replay = some replay → ∀ id, Asks (ReplaysFiltered filter) (replay id)

/-- **The log endpoints agree.**  What is asked in a query and what is asked in a body is
exchanged with the upstream and answered alike, as is a cursor; and the stream subscribes with
the filter that the query fetches with. -/
theorem log_endpoints_agree (app : App) {q : LogQuery} {get post stream : Request}
    {body : List (String × Json)} (hget : AsQuery q get) (hpost : AsBody q post body)
    (hstream : FilterAsQuery q stream) :
    SameRuns (getLogs app get) (postLogsSearch app post) ∧
    (∀ (get post : Request) (raw : String), get.queryGet "cursor" = some raw →
      post.queryGet "cursor" = some raw → get.queryGet "limit" = post.queryGet "limit" →
        SameRuns (getLogs app get) (postLogsSearch app post)) ∧
    Asks (Filtered q.filter) (getLogs app get) ∧
    ∀ (window : Int) (lastEventId : Option String), ∃ s,
      Stream.getStreamsLogs window stream lastEventId = .inr s ∧ StreamsFiltered q.filter s := by
  refine ⟨sameRuns_of_agrees (agrees_pages hget hpost), ?_, asks_getLogs hget, ?_⟩
  · intro get post raw hget hpost hlimit
    exact sameRuns_of_agrees (agrees_resumed hget hpost hlimit)
  · intro window lastEventId
    refine ⟨Stream.logs window q.filter lastEventId, ?_, rfl, ?_⟩
    · unfold Stream.getStreamsLogs
      rw [parseLogFilter_eq hstream]
    · intro replay hreplay id
      injection hreplay with hreplay
      rw [← hreplay]
      exact asks_replayLogs window id

/-- One address in mixed case and a second topic after any first one, up to block 1. -/
def mixedQuery : LogQuery where
  addresses := ["0x00000000000000000000000000000000000000Ab"]
  topics := [none, some "0x00000000000000000000000000000000000000000000000000000000000000Cd"]
  fromBlock := none
  toBlock := some "1"
  limit := some "5"
  addresses_valid := by decide
  topics_valid := by decide
  four := by decide
  last := by decide

/-- Its parameters. -/
def mixedFilter : List (String × String) :=
  [("address", "0x00000000000000000000000000000000000000Ab"),
    ("topic1", "0x00000000000000000000000000000000000000000000000000000000000000Cd")]

def mixedGet : Request :=
  { path := "/logs", query := ("toBlock", "1") :: ("limit", "5") :: mixedFilter }

def mixedBody : List (String × Json) :=
  [("address", .arr [.str "0x00000000000000000000000000000000000000Ab"]),
    ("topics", .arr [.null,
      .str "0x00000000000000000000000000000000000000000000000000000000000000Cd"]),
    ("toBlock", .str "1")]

def mixedPost : Request :=
  { path := "/logs/search", query := [("limit", "5")], body := .ok (.obj mixedBody) }

/-- A request that carries a cursor. -/
def resumedAt (path : String) : Request := { path := path, query := [("cursor", "eyJ9")] }

def mixedStream : Request := { path := "/streams/logs", query := mixedFilter }

theorem filterAsQuery_mixed {req : Request} (haddress : req.queryGet "address" =
      some "0x00000000000000000000000000000000000000Ab")
    (htopics : topicNames.map req.queryGet = [none,
      some "0x00000000000000000000000000000000000000000000000000000000000000Cd", none, none]) :
    FilterAsQuery mixedQuery req := by
  refine ⟨.inl haddress, ?_⟩
  intro i name hname
  have hget := congrArg (fun l => (l[i]?).join) htopics
  rw [List.getElem?_map, hname] at hget
  refine hget.trans ?_
  match i with
  | 0 => rfl
  | 1 => rfl
  | 2 => rfl
  | 3 => rfl
  | i + 4 => rfl

/-- The query, the body and the stream that ask for it. -/
theorem log_endpoints_agree_mixed :
    SameRuns (getLogs (sampleApp 1000 10000) mixedGet)
        (postLogsSearch (sampleApp 1000 10000) mixedPost) ∧
      SameRuns (getLogs (sampleApp 1000 10000) (resumedAt "/logs"))
        (postLogsSearch (sampleApp 1000 10000) (resumedAt "/logs/search")) ∧
      ∃ s, Stream.getStreamsLogs 1000 mixedStream none = .inr s ∧
        StreamsFiltered mixedQuery.filter s := by
  have hget : AsQuery mixedQuery mixedGet :=
    ⟨filterAsQuery_mixed (by decide) (by decide), by decide, by decide, by decide, by decide⟩
  have hpost : AsBody mixedQuery mixedPost mixedBody :=
    ⟨rfl, by decide, by decide, .inl rfl, .inl rfl, rfl, rfl⟩
  have hstream : FilterAsQuery mixedQuery mixedStream := filterAsQuery_mixed (by decide) (by decide)
  have h := log_endpoints_agree (sampleApp 1000 10000) hget hpost hstream
  have hcursor := h.2.1 (resumedAt "/logs") (resumedAt "/logs/search") "eyJ9" rfl rfl rfl
  exact ⟨h.1, hcursor, h.2.2.2 1000 none⟩

end ExecRestApi
