import Mathlib.Data.List.Basic
import Logbook.Hub.Routes
import Logbook.Proofs.Hub.Verdict
import Logbook.Proofs.Ingest.Acceptance
import Logbook.Proofs.Journal.Intact
import Logbook.Proofs.Store.Batches

/-!
# What requests add to a store

Requests come in turn, of every kind, and some of them bring records.  A store only ever grows: the
records after a request are those before it, followed by what the request adds.

What a request adds goes by what the store answers to the batch that the request brings.  If the
store takes the batch, all of its records are there and they are counted.  If it fails on the way, a
proper prefix is there; a journal takes a batch whole or not at all, so it holds none of it then.  A
request that brings no batch never comes before the store, and leaves it as it is.

That a store grows is a matter of what is written: a journal has the frames of the added records
behind its bytes (`Store.adding`).  What it holds is a matter of what is read (`Store.Holds`).  For
a journal this takes an argument: the records of a payload nest no deeper than what is read, so they
are read back, numbers included, and what was intact before stays intact.

* `Payload.readable_of_prepare`: the records of a payload.
* `Store.Opened`, `Store.Holds`: a store at the start, and at any time.
* `Store.appendAll_cases`: what a store answers to a batch.
* `Hub.Adds`, `Hub.handle_adds`: what a request adds, and what is said about it.
* `Hub.Adds.holds`: what the store holds then.
* `Hub.run_adds`: requests in turn.
-/

namespace Logbook

/-! ## Records that come in -/

namespace Record

theorem readable_iff {record : Record} : record.Readable ↔
    (Members.keys record).Nodup ∧ ∀ m ∈ record, m.2.WellFormed ∧ m.2.depth < Json.maxDepth := by
  have hmax : Json.maxDepth = 126 + 1 := rfl
  have hdepth : (Value.map record).depth ≤ Json.maxDepth
      ↔ ∀ m ∈ record, m.2.depth < Json.maxDepth := by
    simp only [Value.depth, hmax, Nat.add_le_add_iff_right, Value.depthOfMembers_le_iff,
      Nat.lt_succ_iff]
  constructor
  · rintro ⟨hwf, hle⟩
    rw [Value.WellFormed, Value.wellFormedMembers_iff] at hwf
    exact ⟨hwf.1, fun m hm => ⟨hwf.2 m hm, hdepth.1 hle m hm⟩⟩
  · rintro ⟨hkeys, hall⟩
    refine ⟨?_, hdepth.2 fun m hm => (hall m hm).2⟩
    rw [Value.WellFormed, Value.wellFormedMembers_iff]
    exact ⟨hkeys, fun m hm => (hall m hm).1⟩

/-- A record that gets a text under a new name can still be read back. -/
theorem Readable.addNew {record : Record} (h : record.Readable) (key text : String) :
    Readable (Members.addNew key (.str text) record) := by
  rw [Members.addNew]
  split
  · exact h
  · rename_i hhas
    rw [Members.has_iff] at hhas
    obtain ⟨hkeys, hall⟩ := readable_iff.1 h
    refine readable_iff.2 ⟨?_, ?_⟩
    · rw [← Members.insert_of_not_mem _ hhas]
      exact Members.nodup_keys_insert key _ hkeys
    · intro m hm
      rcases List.mem_append.1 hm with hm | hm
      · exact hall m hm
      · rw [List.mem_singleton.1 hm]
        exact ⟨trivial, Nat.zero_lt_succ 126⟩

theorem Readable.complete {record : Record} (h : record.Readable) (rules : Rules) (supply : Supply)
    (index : ℕ) : (complete rules supply index record).Readable := by
  have hstamped : Readable (if rules.stampTimestamp then
      Members.addNew "timestamp" (.str supply.now) record else record) := by
    split
    · exact h.addNew _ _
    · exact h
  rw [Record.complete]
  split
  · exact hstamped.addNew _ _
  · exact hstamped

end Record

namespace Payload

/-- The items of a payload are well-formed as it is, and nest no deeper. -/
theorem Holds.wellFormed_and_depth_le {payload : Value} {items : List Value}
    (h : Holds payload items) (hwf : payload.WellFormed) (hdepth : payload.depth ≤ Json.maxDepth) :
    ∀ item ∈ items, item.WellFormed ∧ item.depth ≤ Json.maxDepth := by
  cases h with
  | one own => exact List.forall_mem_singleton.2 ⟨hwf, hdepth⟩
  | batch hne =>
    rw [Value.WellFormed, Value.wellFormedItems_iff] at hwf
    rw [Value.depth] at hdepth
    have hle := Value.depthOfItems_le_iff.1 (Nat.le_of_succ_le hdepth)
    exact fun item hitem => ⟨hwf item hitem, hle item hitem⟩

/-- **The records of a payload can be read back from a journal.** -/
theorem readable_of_prepare {rules : Rules} {supply : Supply} {payload : Value}
    {records : List Record} (hwf : payload.WellFormed) (hdepth : payload.depth ≤ Json.maxDepth)
    (h : prepare rules supply payload = .ok records) : ∀ r ∈ records, r.Readable := by
  obtain ⟨owns, hholds, -, -, rfl⟩ := prepare_eq_ok_iff.1 h
  intro r hr
  obtain ⟨i, hi, rfl⟩ := List.mem_mapIdx.1 hr
  rw [← Record.complete_eq]
  have hitem : Value.map owns[i] ∈ owns.map .map := List.mem_map_of_mem (List.getElem_mem hi)
  obtain ⟨hown, hdeep⟩ := hholds.wellFormed_and_depth_le hwf hdepth _ hitem
  exact Record.Readable.complete ⟨hown, hdeep⟩ rules supply i

end Payload

/-! ## What a store holds -/

namespace Store

/-- Holds of a store and the records in it, whether or not it can be read. -/
inductive Holds : Store → List Record → Prop where
  | memory (records : List Record) : Holds (.memory records) records
  | journal {bytes : ByteArray} {records : List Record} (h : Journal.Intact bytes records) :
      Holds (.journal bytes) records
  | guarded (records : List Record) (refuses : List Record → Record → Option String)
      (unreadable : Option String) : Holds (.guarded records refuses unreadable) records

/-- Holds of a store with which a hub can start, and the records in it.  A journal has been opened,
whatever there was in its file. -/
inductive Opened : Store → List Record → Prop where
  | memory (records : List Record) : Opened (.memory records) records
  | journal {bytes kept : ByteArray} {records : List Record}
      (hopen : Journal.repair bytes = .ok kept) (hrecords : Journal.records bytes = .ok records) :
      Opened (.journal kept) records
  | guarded (records : List Record) (refuses : List Record → Record → Option String)
      (unreadable : Option String) : Opened (.guarded records refuses unreadable) records

variable {store : Store} {records added batch : List Record}

/-- A journal that was opened holds the records of its file. -/
theorem Opened.holds (h : store.Opened records) : store.Holds records := by
  cases h with
  | memory records => exact .memory records
  | journal hopen hrecords =>
    obtain ⟨found, hintact, hfound⟩ := Journal.exists_intact_of_repair hopen
    rw [← Except.ok.inj (hfound.symm.trans hrecords)]
    exact .journal hintact
  | guarded records refuses unreadable => exact .guarded records refuses unreadable

theorem Holds.readAll_eq {found : List Record} (h : store.Holds records)
    (hread : store.readAll = .ok found) : found = records := by
  cases h with
  | memory records => exact (Except.ok.inj hread).symm
  | journal hintact =>
    rw [readAll, hintact.records_eq] at hread
    exact (Except.ok.inj hread).symm
  | guarded records refuses unreadable =>
    cases unreadable with
    | some reason => exact absurd hread (by simp [readAll])
    | none => exact (Except.ok.inj hread).symm

/-- Added records come behind those that are there.  A journal has to be able to hold them. -/
theorem Holds.adding (h : store.Holds records)
    (hadded : ∀ bytes, store = .journal bytes → ∀ r ∈ added, r.Storable) :
    (store.adding added).Holds (records ++ added) := by
  cases h with
  | memory records => exact .memory _
  | journal hintact => exact .journal (hintact.append (hadded _ rfl))
  | guarded records refuses unreadable => exact .guarded _ _ _

/-- **What a store answers to a batch.**  It takes the batch whole, or else it fails and has added a
proper prefix, which for a journal is empty. -/
theorem appendAll_cases (batch : List Record) (store : Store) :
    store.appendAll batch = (.ok batch.length, store.adding batch) ∨
      ∃ e added, store.appendAll batch = (.error e, store.adding added) ∧
        added <+: batch ∧ added ≠ batch ∧ ∀ bytes, store = .journal bytes → added = [] := by
  by_cases hjournal : ∃ bytes, store = .journal bytes
  · obtain ⟨bytes, rfl⟩ := hjournal
    by_cases hfits : ∀ r ∈ batch, r.Fits
    · refine Or.inl ?_
      rw [appendAll, Journal.appendAll_of_fits hfits]
      rfl
    · have hmisfit : ∃ r ∈ batch, ¬r.Fits := by simpa using hfits
      obtain ⟨size, -, hfailed, -⟩ := Journal.appendAll_of_misfit hmisfit bytes
      refine Or.inr ⟨.journal (.tooLong size), [], ?_, List.nil_prefix, ?_, fun _ _ => rfl⟩
      · rw [adding_nil, hfailed]
      · rintro rfl
        exact hfits fun r hr => absurd hr List.not_mem_nil
  · rw [appendAll_eq_all (not_exists.1 hjournal)]
    rcases (addsOrRefuses_offer store).all_cases (adding_nil store).symm batch with
      ⟨after, -, rfl, htaken⟩ | ⟨front, record, rest, before, e, rfl, -, rfl, -, hfailed, -⟩
    · exact Or.inl htaken
    · refine Or.inr ⟨e, front, hfailed, List.prefix_append _ _, ?_, fun bytes h => ?_⟩
      · simp
      · exact absurd ⟨bytes, h⟩ hjournal

/-- All records of a batch that a journal takes fit a frame. -/
theorem fits_of_appendAll_eq_ok {bytes : ByteArray} {n : ℕ} {after : Store}
    (h : Store.appendAll batch (.journal bytes) = (.ok n, after)) : ∀ r ∈ batch, r.Fits :=
  (Journal.writesFrames_offer.takes_iff.1 (Journal.appendAll_eq_ok_iff.1 h).2).1

end Store

/-! ## What a request adds to a store -/

/-- The success of taking records in. -/
def Response.created (count : ℕ) : Response :=
  .json 201 (.map [("success", .bool true), ("count", .ofNat count)])

theorem Route.ofPath?_eq_some_iff {path : String} {route : Route} :
    ofPath? path = some route ↔ path = route.path := by
  rw [ofPath?]
  constructor
  · intro h
    have hroute := List.find?_some h
    exact (of_decide_eq_true hroute).symm
  · rintro rfl
    cases route <;> rfl

namespace Hub

variable (hub : Hub) (moment : Moment)

/-- The records that a request brings, ready to be stored; none if it is not one to take records in,
or if it is refused. -/
def batch? (request : Request) : Option (List Record) :=
  if request.method = "POST" ∧ request.path = Route.logs.path then
    match request.payload hub.settings.maxBodyBytes with
    | .ok payload => (Payload.prepare hub.settings.rules moment.supply payload).toOption
    | .error _ => none
  else none

/-- What a hub tells of itself when it has a number of records. -/
def report (count : ℕ) : Response :=
  .json 200 (.map [("version", .str version), ("store", .str hub.storeName),
    ("records", .ofNat count), ("uptime_seconds", .ofNat moment.uptime)])

/-- How the response to a request, and the store after it, go with the records that are added. -/
inductive Adds (request : Request) (before : Store) :
    Response → Store → List Record → Prop where
  /-- The request brings no records, and the store is left as it is. -/
  | nothing {response : Response} (hbatch : hub.batch? moment request = none)
      (hstatus : response.status ≠ 201) : Adds request before response before []
  /-- The store takes all records, and they are counted. -/
  | all {batch : List Record} (hbatch : hub.batch? moment request = some batch)
      (htaken : before.appendAll batch = (.ok batch.length, before.adding batch)) :
      Adds request before (.created batch.length) (before.adding batch) batch
  /-- The store fails, and has added a proper prefix of the records; a journal has added none. -/
  | part {batch added : List Record} {e : StoreError}
      (hbatch : hub.batch? moment request = some batch)
      (hfailed : before.appendAll batch = (.error e, before.adding added))
      (hstart : added <+: batch) (hproper : added ≠ batch)
      (hjournal : ∀ bytes, before = .journal bytes → added = []) :
      Adds request before (.failure 500 e.message) (before.adding added) added

variable {request : Request} {before : Store} {records : List Record}

/-- The records that a request brings can be read back from a journal. -/
theorem readable_of_batch? {batch : List Record}
    (h : hub.batch? moment request = some batch) : ∀ r ∈ batch, r.Readable := by
  rw [batch?] at h
  split at h
  · split at h
    · rename_i payload hpayload
      obtain ⟨hwf, hdepth⟩ := Request.payload_sound hpayload
      cases hprepare : Payload.prepare hub.settings.rules moment.supply payload with
      | error refusal =>
        rw [hprepare] at h
        exact absurd h (by simp [Except.toOption])
      | ok found =>
        rw [hprepare] at h
        exact Option.some.inj h ▸ Payload.readable_of_prepare hwf hdepth hprepare
    · exact absurd h (by simp)
  · exact absurd h (by simp)

namespace Adds

variable {hub} {moment} {response : Response} {after : Store} {added : List Record}

theorem after_eq (h : hub.Adds moment request before response after added) :
    after = before.adding added := by
  cases h with
  | nothing hbatch hstatus => exact (Store.adding_nil before).symm
  | all hbatch htaken => rfl
  | part hbatch hfailed hstart hproper hjournal => rfl

/-- **A store holds what it held before, and what the request adds.** -/
theorem holds (h : hub.Adds moment request before response after added)
    (hbefore : before.Holds records) : after.Holds (records ++ added) := by
  rw [h.after_eq]
  refine hbefore.adding fun bytes hjournal => ?_
  cases h with
  | nothing hbatch hstatus => exact fun r hr => absurd hr List.not_mem_nil
  | all hbatch htaken =>
    have hfits := Store.fits_of_appendAll_eq_ok (hjournal ▸ htaken)
    exact fun r hr => ⟨readable_of_batch? hub moment hbatch r hr, hfits r hr⟩
  | part hbatch hfailed hstart hproper hnone =>
    rw [hnone bytes hjournal]
    exact fun r hr => absurd hr List.not_mem_nil

/-- A request without records adds nothing. -/
theorem of_no_batch (h : hub.Adds moment request before response after added)
    (hbatch : hub.batch? moment request = none) : after = before ∧ added = [] := by
  cases h with
  | nothing _ _ => exact ⟨rfl, rfl⟩
  | all hsome _ => exact absurd (hbatch.symm.trans hsome) (by simp)
  | part hsome _ _ _ _ => exact absurd (hbatch.symm.trans hsome) (by simp)

/-- Records that the store takes are all added, and counted. -/
theorem of_taken {batch : List Record} {n : ℕ} {s : Store}
    (h : hub.Adds moment request before response after added)
    (hbatch : hub.batch? moment request = some batch)
    (htaken : before.appendAll batch = (.ok n, s)) :
    response = .created batch.length ∧ after = s ∧ added = batch := by
  cases h with
  | nothing hnone _ => exact absurd (hnone.symm.trans hbatch) (by simp)
  | all hsome hsame =>
    obtain rfl := Option.some.inj (hsome.symm.trans hbatch)
    exact ⟨rfl, congrArg Prod.snd (hsame.symm.trans htaken), rfl⟩
  | part hsome hfailed _ _ _ =>
    obtain rfl := Option.some.inj (hsome.symm.trans hbatch)
    exact absurd (congrArg Prod.fst (hfailed.symm.trans htaken)) (by simp)

/-- When the store fails, the response has its error, and not all records are added. -/
theorem of_failed {batch : List Record} {e : StoreError} {s : Store}
    (h : hub.Adds moment request before response after added)
    (hbatch : hub.batch? moment request = some batch)
    (hfailed : before.appendAll batch = (.error e, s)) :
    response = .failure 500 e.message ∧ after = s ∧ added <+: batch ∧ added ≠ batch := by
  cases h with
  | nothing hnone _ => exact absurd (hnone.symm.trans hbatch) (by simp)
  | all hsome htaken =>
    obtain rfl := Option.some.inj (hsome.symm.trans hbatch)
    exact absurd (congrArg Prod.fst (htaken.symm.trans hfailed)) (by simp)
  | part hsome hsame hstart hproper _ =>
    obtain rfl := Option.some.inj (hsome.symm.trans hbatch)
    obtain ⟨herror, hstore⟩ := Prod.mk.inj (hsame.symm.trans hfailed)
    exact ⟨by rw [Except.error.inj herror], hstore, hstart, hproper⟩

end Adds

/-- What comes of a payload that can be read. -/
theorem exists_adds_ingest {payload : Value}
    (hroute : request.method = "POST" ∧ request.path = Route.logs.path)
    (hpayload : request.payload hub.settings.maxBodyBytes = .ok payload) :
    ∃ added, hub.Adds moment request before (hub.ingest moment payload before).1
      (hub.ingest moment payload before).2 added := by
  have hbatch : hub.batch? moment request
      = (Payload.prepare hub.settings.rules moment.supply payload).toOption := by
    rw [batch?, if_pos hroute, hpayload]
  rw [ingest]
  cases hprepare : Payload.prepare hub.settings.rules moment.supply payload with
  | error refusal =>
    rw [hprepare] at hbatch
    exact ⟨[], .nothing hbatch (show (400 : ℕ) ≠ 201 by decide)⟩
  | ok batch =>
    rw [hprepare] at hbatch
    dsimp only
    rcases Store.appendAll_cases batch before with
      htaken | ⟨e, added, hfailed, hstart, hproper, hjournal⟩
    · rw [htaken]
      exact ⟨batch, .all hbatch htaken⟩
    · rw [hfailed]
      exact ⟨added, .part hbatch hfailed hstart hproper hjournal⟩

/-! ## Requests that bring no records -/

theorem status_ne_created (store : Store) : (hub.status moment store).status ≠ 201 := by
  rw [status]
  split
  · exact show (500 : ℕ) ≠ 201 by decide
  · exact show (200 : ℕ) ≠ 201 by decide

theorem query_ne_created (raw : Value) (store : Store) : (query raw store).status ≠ 201 := by
  rw [query]
  split
  · exact show (200 : ℕ) ≠ 201 by decide
  · rename_i e _
    cases e with
    | invalid issues => exact show (400 : ℕ) ≠ 201 by decide
    | store error => exact show (500 : ℕ) ≠ 201 by decide

/-- A request that is refused before its body is looked into does not succeed. -/
theorem rejection_ne_created (rejection : Rejection) : rejection.status ≠ 201 := by
  cases rejection <;> decide

/-- A route that takes no records in leaves the store as it is. -/
theorem post_of_ne_logs {route : Route} (hroute : route ≠ .logs) (store : Store) :
    (hub.post moment route request store).2 = store ∧
      (hub.post moment route request store).1.status ≠ 201 := by
  unfold post
  split
  · exact ⟨rfl, show (405 : ℕ) ≠ 201 by decide⟩
  · exact absurd rfl hroute
  · exact ⟨rfl, query_ne_created _ _⟩
  · exact ⟨rfl, show (200 : ℕ) ≠ 201 by decide⟩
  · exact ⟨rfl, rejection_ne_created _⟩
  · exact ⟨rfl, rejection_ne_created _⟩

/-- **Whatever is not sent to take records in leaves the store as it is.** -/
theorem handle_of_not_logs (h : ¬(request.method = "POST" ∧ request.path = Route.logs.path))
    (store : Store) : (hub.handle moment request store).2 = store ∧
      (hub.handle moment request store).1.status ≠ 201 := by
  unfold handle
  split
  · exact ⟨rfl, show (200 : ℕ) ≠ 201 by decide⟩
  split
  · exact ⟨rfl, show (404 : ℕ) ≠ 201 by decide⟩
  · exact ⟨rfl, status_ne_created hub moment store⟩
  · exact ⟨rfl, status_ne_created hub moment store⟩
  · rename_i route hpath hmethod
    refine post_of_ne_logs hub moment ?_ store
    rintro rfl
    exact h ⟨hmethod, Route.ofPath?_eq_some_iff.1 hpath⟩
  · exact ⟨rfl, show (405 : ℕ) ≠ 201 by decide⟩

/-! ## Requests in turn -/

/-- **What one request adds to a store.** -/
theorem handle_adds (request : Request) (before : Store) :
    ∃ added, hub.Adds moment request before (hub.handle moment request before).1
      (hub.handle moment request before).2 added := by
  by_cases hroute : request.method = "POST" ∧ request.path = Route.logs.path
  · have hhandle : hub.handle moment request before = hub.post moment .logs request before := by
      rw [handle, hroute.1, Route.ofPath?_eq_some_iff.2 hroute.2]
      rfl
    rw [hhandle]
    cases hpayload : request.payload hub.settings.maxBodyBytes with
    | ok payload =>
      simp only [post, hpayload]
      exact exists_adds_ingest hub moment hroute hpayload
    | error rejection =>
      have hbatch : hub.batch? moment request = none := by
        rw [batch?, if_pos hroute, hpayload]
      simp only [post, hpayload]
      exact ⟨[], .nothing hbatch (rejection_ne_created rejection)⟩
  · obtain ⟨hafter, hstatus⟩ := handle_of_not_logs hub moment hroute before
    have hbatch : hub.batch? moment request = none := by
      rw [batch?, if_neg hroute]
    rw [hafter]
    exact ⟨[], .nothing hbatch hstatus⟩

/-- A hub tells of the records that it can read. -/
theorem handle_status (hmethod : request.method = "GET") (hpath : request.path = Route.status.path)
    {held : List Record} (hread : before.readAll = .ok held) :
    (hub.handle moment request before).1 = hub.report moment held.length := by
  rw [handle, hmethod, Route.ofPath?_eq_some_iff.2 hpath, if_neg (by decide)]
  show hub.status moment before = _
  rw [status, hread, report]

/-- A request finds the store as the one before has left it. -/
theorem before_eq_after {store before after : Store} {responses : List (Response × Store)} {i : ℕ}
    {response : Response} (hbefore : (store :: responses.map Prod.snd)[i + 1]? = some before)
    (hafter : responses[i]? = some (response, after)) : before = after := by
  rw [List.getElem?_cons_succ, List.getElem?_map, hafter] at hbefore
  exact (Option.some.inj hbefore).symm

/-- A hub that takes records as they are. -/
def plainHub : Hub := ⟨⟨100, false, false, [], 10⟩, "memory"⟩

/-- A request to take in what is in a value, after seven seconds. -/
def sent (payload : Value) : Moment × Request :=
  (⟨⟨"now", toString⟩, 7⟩, .asking .logs (some "application/json") payload.text.toUTF8)

/-- A record is sent, then an empty list, then two records; in the end the hub is asked how many
there are. -/
def fillingRequests : List (Moment × Request) :=
  [sent (.map [("a", .null)]), sent (.list []),
    sent (.list [.map [("b", .null)], .map [("c", .null)]]),
    (⟨⟨"now", toString⟩, 7⟩, ⟨"GET", "/api/status", none, .empty⟩)]

/-- The requests in turn, where there is room for two records. -/
def fillingRun : List (Response × Store) :=
  plainHub.run fillingRequests (.limited [] 2 "full" none)

theorem batch?_sent {payload : Value} (hwf : payload.WellFormed)
    (hdepth : payload.depth ≤ Json.maxDepth) (hsize : payload.text.toUTF8.size ≤ 100) :
    plainHub.batch? (sent payload).1 (sent payload).2
      = (Payload.prepare ⟨false, false, [], 10⟩ ⟨"now", toString⟩ payload).toOption := by
  have hpayload : (sent payload).2.payload plainHub.settings.maxBodyBytes = .ok payload :=
    Request.payload_text hwf hdepth .logs (by decide +kernel) hsize
  rw [batch?, if_pos ⟨rfl, rfl⟩, hpayload]
  rfl

end Hub

end Logbook
