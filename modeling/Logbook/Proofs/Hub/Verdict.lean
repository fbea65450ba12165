import Mathlib.Data.List.Basic
import Logbook.Client.Commands
import Logbook.Hub.Routes
import Logbook.Proofs.Journal.Frames
import Logbook.Proofs.Json.Soundness
import Logbook.Proofs.Json.RoundTrip
import Logbook.Proofs.Query.Reading

/-!
# One verdict on a query

A query can be checked by a hub, answered by a hub, and answered by the command line from a journal.
The three say the same.  A hub that is asked to check a query lists its issues exactly when a hub
that is asked to answer it refuses it with these issues, whatever its store holds and whether or not
it can be read.  The command line refuses the same queries with the same words before it looks for
the file, and otherwise finds in the records of the file what a hub finds that holds them.

The answers of a hub are JSON texts, so two answers are told apart by their texts.  A value can be
had back from its text, which is why the issues can.

* `Response.json_inj`: a response belongs to one status and one value.
* `Request.asking`: a request that asks a route about a body.
* `Query.parse_cases`: a query is read or has issues.
* `Client.run_searchJournal_of_issues`, `Client.run_searchJournal_of_parse`: the command line.
* `Hub.entryPoints_agree`: the three ways of asking.
-/

namespace Logbook

/-! ## Responses and their values -/

namespace Response

theorem json_inj {s t : ℕ} {v w : Value} (hv : v.WellFormed) (hw : w.WellFormed) :
    json s v = json t w ↔ s = t ∧ v = w := by
  constructor
  · intro h
    rw [json, json, Response.mk.injEq] at h
    exact ⟨h.1, Value.text_injective hv hw h.2.2⟩
  · rintro ⟨rfl, rfl⟩
    rfl

/-- The verdict that nothing is wrong with a query. -/
def valid : Response := json 200 (.map [("valid", .bool true)])

/-- The verdict that lists what is wrong with a query. -/
def invalid (issues : List Issue) : Response :=
  json 200 (.map [("valid", .bool false), Issue.member issues])

end Response

namespace Issue

theorem wellFormed_toValue (issue : Issue) : issue.toValue.WellFormed := by
  simp [toValue, Value.WellFormed, Value.WellFormedMembers, Members.keys]

theorem wellFormed_member (issues : List Issue) : (member issues).2.WellFormed := by
  rw [member, Value.WellFormed, Value.wellFormedItems_iff, List.forall_mem_map]
  exact fun issue _ => issue.wellFormed_toValue

/-- Issues that look alike in a response are worded alike. -/
theorem summary_eq_of_member_eq {E F : List Issue} (h : member E = member F) :
    summary E = summary F := by
  have hvalues : E.map toValue = F.map toValue := Value.list.inj (Prod.mk.inj h).2
  have htext : ∀ i j : Issue, i.toValue = j.toValue → i.text = j.text := by
    intro i j hij
    simp only [toValue, Value.map.injEq, List.cons.injEq, Prod.mk.injEq, Value.str.injEq] at hij
    rw [text, text, hij.1.2, hij.2.1.2]
  have htexts : ∀ {E F : List Issue}, E.map toValue = F.map toValue → E.map text = F.map text := by
    intro E F hEF
    induction E generalizing F with
    | nil => rw [List.map_nil] at hEF; rw [List.map_eq_nil_iff.1 hEF.symm]
    | cons i E ih =>
      cases F with
      | nil => exact absurd hEF (by simp)
      | cons j F =>
        rw [List.map_cons, List.map_cons, List.cons.injEq] at hEF
        rw [List.map_cons, List.map_cons, htext i j hEF.1, ih hEF.2]
  rw [summary, summary, htexts hvalues]

end Issue

namespace Response

theorem invalid_inj {E F : List Issue} : invalid E = invalid F ↔ Issue.member E = Issue.member F := by
  have hwf : ∀ issues : List Issue,
      (Value.map [("valid", .bool false), Issue.member issues]).WellFormed := by
    intro issues
    have := Issue.wellFormed_member issues
    simp_all [Value.WellFormed, Value.WellFormedMembers, Members.keys, Issue.member]
  rw [invalid, invalid, json_inj (hwf E) (hwf F)]
  simp

theorem valid_ne_invalid (issues : List Issue) : valid ≠ invalid issues := by
  have := Issue.wellFormed_member issues
  rw [valid, invalid, Ne, json_inj] <;>
    simp_all [Value.WellFormed, Value.WellFormedMembers, Members.keys, Issue.member]

theorem queryFailure_inj {s t : ℕ} {m n : String} {E F : List Issue} :
    queryFailure s m [Issue.member E] = queryFailure t n [Issue.member F]
      ↔ s = t ∧ m = n ∧ Issue.member E = Issue.member F := by
  have hwf : ∀ (message : String) (issues : List Issue),
      (Value.map ([("success", .bool false), ("data", .list []), ("count", .ofNat 0),
        ("error", .str message)] ++ [Issue.member issues])).WellFormed := by
    intro message issues
    have := Issue.wellFormed_member issues
    simp_all [Value.WellFormed, Value.WellFormedMembers, Value.WellFormedItems, Members.keys,
      Issue.member, Value.ofNat, Number.InRange, Double.wordFloor, Double.wordCeil]
  rw [queryFailure, queryFailure, json_inj (hwf m E) (hwf n F)]
  simp

end Response

/-! ## Requests that carry a query -/

/-- A request that asks a route about a body. -/
def Request.asking (route : Route) (contentType : Option String) (body : ByteArray) : Request :=
  ⟨"POST", route.path, contentType, body⟩

theorem Hub.handle_asking (hub : Hub) (moment : Moment) (route : Route)
    (contentType : Option String) (body : ByteArray) (store : Store) :
    hub.handle moment (.asking route contentType body) store
      = hub.post moment route (.asking route contentType body) store := by
  cases route <;> rfl

/-- A value in the body of a request can be written. -/
theorem Request.payload_sound {maxBytes : ℕ} {request : Request} {v : Value}
    (h : request.payload maxBytes = .ok v) : v.WellFormed ∧ v.depth ≤ Json.maxDepth := by
  unfold payload at h
  split at h
  · exact absurd h (by simp)
  split at h
  · exact absurd h (by simp)
  split at h
  · rename_i hfirst
    exact Except.ok.inj h ▸ Value.first?_sound hfirst
  · exact absurd h (by simp)

/-- Each value that can be written, and is not nested too deep, is in the body that is its text. -/
theorem Request.payload_text {maxBytes : ℕ} {v : Value} (hv : v.WellFormed)
    (hdepth : v.depth ≤ Json.maxDepth) (route : Route) {contentType : String}
    (hjson : MediaType.isJson contentType = true) (hsize : v.text.toUTF8.size ≤ maxBytes) :
    (Request.asking route (some contentType) v.text.toUTF8).payload maxBytes = .ok v := by
  have hread : Value.first? (Utf8.soundPrefix v.text.toUTF8) = some (v, []) := by
    rw [Utf8.soundPrefix_toUTF8, Value.text, String.toList_ofList]
    exact Value.first?_write hv hdepth Json.Token.stops_nil
  simp only [payload, asking, Option.elim_some, hjson, hread, if_neg hsize.not_gt]
  rfl

/-! ## Queries that are read, and queries that have issues -/

namespace Query

/-- A query is read, or is refused with all of its issues; it is never refused as unreadable. -/
theorem parse_cases {raw : Value} (hwf : raw.WellFormed) :
    (issues raw = [] ∧ ∃ q, parse raw = .ok q) ∨
      (issues raw ≠ [] ∧ parse raw = .error (issues raw)) := by
  by_cases h : issues raw = []
  · have hquery := (issues_eq_nil_iff_isQuery raw).1 h
    obtain ⟨q, hread, -⟩ := exists_ofValue? hquery hwf
    exact Or.inl ⟨h, q, parse_of_isQuery hquery hread⟩
  · refine Or.inr ⟨h, ?_⟩
    unfold parse
    split
    · exact absurd ‹_› h
    · rfl

end Query

namespace Hub

theorem validate_of_no_issues {raw : Value} (h : Query.issues raw = []) :
    validate raw = .valid := by
  rw [validate, Query.verdict, h, Response.valid]

theorem validate_of_issues {raw : Value} (h : Query.issues raw ≠ []) :
    validate raw = .invalid (Query.issues raw) := by
  rw [validate, Query.verdict, Response.invalid]
  split
  · exact absurd ‹_› h
  · rfl

theorem query_of_error {raw : Value} {issues : List Issue} (h : Query.parse raw = .error issues)
    (store : Store) :
    query raw store = .queryFailure 400 (Issue.summary issues) [Issue.member issues] := by
  rw [query, Store.execute, h]
  rfl

theorem query_of_parse {raw : Value} {q : Query} (h : Query.parse raw = .ok q) (store : Store) :
    (∀ records, store.readAll = .ok records → query raw store = .ofAnswer (q.run records)) ∧
      ∀ e, store.readAll = .error e → query raw store = .queryFailure 500 e.message [] := by
  constructor
  · intro records hrecords
    simp only [query, Store.execute, h, Store.answer, hrecords, Except.map]
  · intro e he
    simp only [query, Store.execute, h, Store.answer, he, Except.map, Response.ofQueryError]

end Hub

namespace Client

/-- What the command line writes about an answer. -/
def shown (json : Bool) (a : Answer) : String :=
  (if json then a.toValue.indentedText else a.summary) ++ "\n"

@[simp] theorem run_fail (world : World) (message : String) :
    (Plan.fail message).run world = ⟨1, "", message ++ "\n"⟩ := by
  simp [Plan.fail, Plan.run]

@[simp] theorem run_printLast (world : World) (text : String) :
    (Plan.printLast text).run world = ⟨0, text ++ "\n", ""⟩ := by
  simp [Plan.printLast, Plan.run]

variable {raw : Value} (journal : String) (json : Bool) (world : World)

/-- A query with issues is refused before the file is looked for. -/
theorem run_searchJournal_of_issues {issues : List Issue} (h : Query.parse raw = .error issues) :
    (searchJournal journal json raw).run world = ⟨1, "", Issue.summary issues ++ "\n"⟩ := by
  rw [searchJournal, h]
  exact run_fail world _

theorem run_searchJournal_of_parse {q : Query} (h : Query.parse raw = .ok q) :
    (∀ a, (world.file journal).bind q.search = .ok a →
      (searchJournal journal json raw).run world = ⟨0, shown json a, ""⟩) ∧
      ∀ reason, (world.file journal).bind q.search = .error reason →
        (searchJournal journal json raw).run world
          = ⟨1, "", "Failed to read journal " ++ journal ++ ": " ++ reason ++ "\n"⟩ := by
  constructor
  · intro a ha
    rw [searchJournal, h, Plan.run, ha]
    exact run_printLast world _
  · intro reason hreason
    rw [searchJournal, h, Plan.run, hreason]
    exact run_fail world _

end Client

/-! ## The three ways of asking -/

namespace Hub

variable (hub : Hub) {contentType : Option String} {body : ByteArray} {raw : Value}
  (moment : Moment) (store : Store)

/-- Whether a body has a payload does not depend on the route it is sent to. -/
theorem handle_validate
    (h : (Request.asking .query contentType body).payload hub.settings.maxBodyBytes = .ok raw) :
    hub.handle moment (.asking .validate contentType body) store = (validate raw, store) := by
  have hpayload : (Request.asking .validate contentType body).payload hub.settings.maxBodyBytes
      = .ok raw := h
  simp only [handle_asking, post, hpayload]

theorem handle_query
    (h : (Request.asking .query contentType body).payload hub.settings.maxBodyBytes = .ok raw) :
    hub.handle moment (.asking .query contentType body) store = (query raw store, store) := by
  simp only [handle_asking, post, h]

/-- **A query is valid for all that are asked, or for none, and then they answer alike.**

The verdict lists issues exactly when the hub that is to answer refuses with these issues, and the
command line ends with the words of that refusal and no others.  A valid query is answered from the
records of the store, or with the error of the store, and the command line shows the answer that a
hub with the records of the file gives. -/
theorem entryPoints_agree
    (hbody : (Request.asking .query contentType body).payload hub.settings.maxBodyBytes = .ok raw)
    (asked : Moment) (held : Store) (journal : String) (json : Bool) (world : Client.World) :
    let verdict := (hub.handle moment (.asking .validate contentType body) store).1
    let reply := (hub.handle asked (.asking .query contentType body) held).1
    let outcome := (Client.searchJournal journal json raw).run world
    (verdict = .valid ∨ ∃ issues, verdict = .invalid issues) ∧
    (∀ issues, verdict = .invalid issues
      ↔ ∃ message, reply = .queryFailure 400 message [Issue.member issues]) ∧
    (∀ issues message, reply = .queryFailure 400 message [Issue.member issues] →
      message = Issue.summary issues) ∧
    (∀ text, (∃ issues, reply = .queryFailure 400 ("invalid query: " ++ text) [Issue.member issues])
      ↔ outcome = ⟨1, "", "invalid query: " ++ text ++ "\n"⟩) ∧
    (verdict = .valid → ∃ q, Query.parse raw = .ok q ∧
      (∀ records, held.readAll = .ok records → reply = .ofAnswer (q.run records)) ∧
      (∀ e, held.readAll = .error e → reply = .queryFailure 500 e.message []) ∧
      ∀ bytes records, world.file journal = .ok bytes → Journal.records bytes = .ok records →
        outcome = ⟨0, Client.shown json (q.run records), ""⟩) := by
  have hwf := (Request.payload_sound hbody).1
  simp only [handle_validate hub _ _ hbody, handle_query hub _ _ hbody]
  rcases Query.parse_cases hwf with ⟨hissues, q, hparse⟩ | ⟨hissues, hparse⟩
  · -- The query is valid: no reply lists issues, and the command line does not speak of any.
    obtain ⟨hanswer, herror⟩ := query_of_parse hparse held
    obtain ⟨hshown, hfailed⟩ := Client.run_searchJournal_of_parse journal json world hparse
    have hreply : ∀ issues message,
        query raw held ≠ .queryFailure 400 message [Issue.member issues] := by
      intro issues message h
      cases hread : held.readAll with
      | ok records =>
        rw [hanswer records hread] at h
        exact absurd (congrArg Response.status h) (show (200 : ℕ) ≠ 400 by decide)
      | error e =>
        rw [herror e hread] at h
        exact absurd (congrArg Response.status h) (show (500 : ℕ) ≠ 400 by decide)
    rw [validate_of_no_issues hissues]
    refine ⟨Or.inl rfl, fun issues => ⟨fun h => absurd h (Response.valid_ne_invalid issues), ?_⟩,
      fun issues message h => absurd h (hreply issues message), fun text => ⟨?_, fun h => ?_⟩,
      fun _ => ⟨q, hparse, hanswer, herror, fun bytes records hfile hrecords => hshown _ ?_⟩⟩
    · rintro ⟨message, h⟩
      exact absurd h (hreply issues message)
    · rintro ⟨issues, h⟩
      exact absurd h (hreply issues _)
    · cases hfound : (world.file journal).bind q.search with
      | ok a =>
        rw [hshown a hfound] at h
        exact absurd (congrArg Client.Outcome.code h) (show (0 : ℕ) ≠ 1 by decide)
      | error reason =>
        rw [hfailed reason hfound] at h
        have htext := congrArg (fun outcome => outcome.stderr.toList.head?) h
        exact absurd htext (by simp)
    · rw [hfile]
      change q.search bytes = _
      rw [Query.search, hrecords]
  · -- The query has issues, and all three name them.
    rw [validate_of_issues hissues, query_of_error hparse,
      Client.run_searchJournal_of_issues journal json world hparse]
    refine ⟨Or.inr ⟨_, rfl⟩, fun issues => ?_, fun issues message h => ?_, fun text => ?_,
      fun h => absurd h.symm (Response.valid_ne_invalid _)⟩
    · simp only [Response.invalid_inj, Response.queryFailure_inj, true_and, exists_eq_left']
    · obtain ⟨-, hmessage, hmember⟩ := Response.queryFailure_inj.1 h
      rw [← hmessage, Issue.summary_eq_of_member_eq hmember]
    · simp only [Response.queryFailure_inj, Client.Outcome.mk.injEq, true_and]
      constructor
      · rintro ⟨issues, hmessage, -⟩
        rw [hmessage]
      · intro h
        exact ⟨_, (String.append_left_inj _).1 h, rfl⟩

/-- Two records, of which one has a field `a`. -/
def heldRecords : List Record := [[("b", .null)], [("a", .bool true), ("b", .null)]]

/-- Asks for one record where `a` is true. -/
def oneRecordQuery : Value :=
  .map [("where", .map [("field", .str "a"), ("operator", .str "eq"), ("value", .bool true)]),
    ("limit", .num (.int 1))]

/-- What is found then. -/
def foundRecord : Answer := ⟨[.map [("a", .bool true), ("b", .null)]], 1, 1⟩

/-- A list is no query: what the command line says of it where there is no file, a hub says whose
store cannot be read.  A query for one record is valid also for that hub.  It is answered from
records in memory as from a journal that holds them. -/
theorem entryPoints_agree_listAndQuery :
    let contentType := some "application/json"
    let unreadable := Store.guarded heldRecords (fun _ _ => none) (some "disk failure")
    let hub : Hub := ⟨.default, "memory"⟩
    let moment : Moment := ⟨⟨"now", toString⟩, 0⟩
    let world (file : Except String ByteArray) : Client.World :=
      ⟨fun _ => file, fun _ => .error "no hub", .refused ∘ String.join⟩
    (∀ raw ∈ [Value.list [], oneRecordQuery],
      (Request.asking .query contentType raw.text.toUTF8).payload hub.settings.maxBodyBytes
        = .ok raw) ∧
    ((Client.searchJournal "logs.journal" false (.list [])).run (world (.error "no file"))
        = ⟨1, "", "invalid query: $: query must be a map, got list\n"⟩ ∧
      ∃ issues, (hub.handle moment
          (.asking .query contentType (Value.list []).text.toUTF8) unreadable).1
        = .queryFailure 400 "invalid query: $: query must be a map, got list"
          [Issue.member issues]) ∧
    (hub.handle moment (.asking .validate contentType oneRecordQuery.text.toUTF8) unreadable).1
      = .valid ∧
    (hub.handle moment (.asking .query contentType oneRecordQuery.text.toUTF8)
      (.memory heldRecords)).1 = .ofAnswer foundRecord ∧
    (Client.searchJournal "logs.journal" true oneRecordQuery).run
        (world (.ok (Journal.image heldRecords))) = ⟨0, Client.shown true foundRecord, ""⟩ := by
  intro contentType unreadable hub moment world
  have hlist : (Request.asking .query contentType (Value.list []).text.toUTF8).payload
      hub.settings.maxBodyBytes = .ok (.list []) := by
    have hwf : (Value.list []).WellFormed := trivial
    exact Request.payload_text hwf (by decide) .query (by decide +kernel) (by decide +kernel)
  have hone : (Request.asking .query contentType oneRecordQuery.text.toUTF8).payload
      hub.settings.maxBodyBytes = .ok oneRecordQuery := by
    have hwf : oneRecordQuery.WellFormed := by
      simp [oneRecordQuery, Value.WellFormed, Value.WellFormedMembers, Members.keys,
        Number.InRange, Double.wordFloor, Double.wordCeil]
    exact Request.payload_text hwf (by decide) .query (by decide +kernel) (by decide +kernel)
  refine ⟨List.forall_mem_cons.2 ⟨hlist, List.forall_mem_singleton.2 hone⟩, ⟨rfl, ?_⟩, ?_⟩
  · obtain ⟨-, -, -, hsame, -⟩ := entryPoints_agree hub moment (.memory []) hlist moment unreadable
      "logs.journal" false (world (.error "no file"))
    exact (hsame "$: query must be a map, got list").2 rfl
  · obtain ⟨-, -, -, -, hvalid⟩ := entryPoints_agree hub moment unreadable hone moment
      (.memory heldRecords) "logs.journal" true (world (.ok (Journal.image heldRecords)))
    have hverdict : (hub.handle moment
        (.asking .validate contentType oneRecordQuery.text.toUTF8) unreadable).1 = .valid := by
      rw [handle_validate hub moment unreadable hone]
      exact validate_of_no_issues (by decide +kernel)
    have hstorable : ∀ r ∈ heldRecords, r.Storable := by
      rw [heldRecords, List.forall_mem_cons, List.forall_mem_singleton]
      refine ⟨⟨⟨?_, by decide⟩, by decide +kernel⟩, ⟨⟨?_, by decide⟩, by decide +kernel⟩⟩ <;>
        simp [Value.WellFormed, Value.WellFormedMembers, Members.keys]
    obtain ⟨q, hparse, hmemory, -, hjournal⟩ := hvalid hverdict
    have hread : Query.parse oneRecordQuery
        = .ok ⟨none, some (.condition ⟨"a", .eq, .bool true⟩), none, none, some 1, none⟩ := rfl
    have hfound : q.run heldRecords = foundRecord := by
      rw [Except.ok.inj (hparse.symm.trans hread)]
      rfl
    refine ⟨hverdict, ?_, ?_⟩
    · rw [← hfound]
      exact hmemory heldRecords rfl
    · rw [← hfound]
      exact hjournal _ heldRecords rfl (Journal.records_image hstorable)

end Hub

end Logbook
