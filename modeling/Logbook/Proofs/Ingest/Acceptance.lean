import Logbook.Ingest
import Logbook.Proofs.Value.Lookup

/-!
# What is accepted from outside

A payload is accepted as a whole or refused as a whole.  It is accepted when all of its items meet
the rules, and this depends neither on the time nor on the ids that are at hand.  Of the items that
do not meet them the first is named.

A record is asked for fields and then given a time and an id, and the two use different notions of a
field.  A required field may be a path through nested maps; a time or an id is added where there is
no key of that name, whatever a path may lead to.  Added last, they change no value that was found,
since their names are no paths and no path goes on from a text.  So the completed records meet the
rules again, and as they have a time and an id by now, nothing is added to them a second time.

* `Record.added`, `Record.complete_eq`: the members that are added.
* `Record.lookup_append_added`, `Record.added_append_added`: what was found is found, and a
  completed record stays as it is.
* `Record.Meets`, `Value.IsAccepted`, `Record.Fails`: the rules, and what goes against them.
* `Record.accept_cases`, `Record.acceptAll_cases`: one item, and items in turn.
* `Payload.Holds`, `Payload.prepare_eq_ok_iff`: the items of a payload, and payloads that are
  accepted.
* `Payload.prepare_all_or_none`: what becomes of a payload.
-/

namespace Logbook

/-! ## What is added -/

theorem Members.addNew_eq (key : String) (v : Value) (ms : Members) :
    addNew key v ms = ms ++ if key ∈ keys ms then [] else [(key, v)] := by
  rw [addNew]
  by_cases h : key ∈ keys ms
  · rw [if_pos (has_iff.2 h), if_pos h, List.append_nil]
  · rw [if_neg (fun hhas => h (has_iff.1 hhas)), if_neg h]

theorem Members.mem_keys_append {key : String} {ms ns : Members} :
    key ∈ keys (ms ++ ns) ↔ key ∈ keys ms ∨ key ∈ keys ns := by
  rw [keys, List.map_append, List.mem_append, ← keys, ← keys]

namespace Record

/-- The members that the rules add to the record at a place of the batch: the time if it has none,
and then an id if it has none. -/
def added (rules : Rules) (supply : Supply) (index : ℕ) (own : Record) : Members :=
  (if rules.stampTimestamp = true ∧ "timestamp" ∉ Members.keys own
    then [("timestamp", .str supply.now)] else []) ++
  if rules.assignId = true ∧ "id" ∉ Members.keys own then [("id", .str (supply.id index))] else []

section Added

variable (rules : Rules) (supply : Supply) (index : ℕ) (own : Record)

/-- **A completed record has its own members, and behind them those that are added.** -/
theorem complete_eq : complete rules supply index own = own ++ added rules supply index own := by
  have hid : ∀ more, ("id" ∈ Members.keys (own ++ if "timestamp" ∈ Members.keys own then []
      else [("timestamp", more)])) ↔ "id" ∈ Members.keys own := by
    intro more
    rw [Members.mem_keys_append]
    refine or_iff_left ?_
    split <;> simp [Members.keys]
  rw [complete, added]
  cases rules.stampTimestamp <;> cases rules.assignId <;>
    simp [Members.addNew_eq, hid, ite_not]

/-- What is added is a time or an id. -/
theorem mem_added {m : String × Value} (h : m ∈ added rules supply index own) :
    (m.1 = "timestamp" ∨ m.1 = "id") ∧ ∃ s, m.2 = .str s := by
  rcases List.mem_append.1 h with h | h <;> split at h
  · rw [List.mem_singleton.1 h]
    exact ⟨Or.inl rfl, _, rfl⟩
  · exact absurd h List.not_mem_nil
  · rw [List.mem_singleton.1 h]
    exact ⟨Or.inr rfl, _, rfl⟩
  · exact absurd h List.not_mem_nil

/-- A record that is given a time or an id has one. -/
theorem mem_keys_append_added :
    (rules.stampTimestamp = true →
      "timestamp" ∈ Members.keys (own ++ added rules supply index own)) ∧
    (rules.assignId = true → "id" ∈ Members.keys (own ++ added rules supply index own)) := by
  rw [Members.mem_keys_append, Members.mem_keys_append, added, Members.mem_keys_append,
    Members.mem_keys_append]
  refine ⟨fun hstamp => ?_, fun hassign => ?_⟩
  · by_cases hown : "timestamp" ∈ Members.keys own
    · exact Or.inl hown
    · rw [if_pos ⟨hstamp, hown⟩]
      exact Or.inr (Or.inl (List.mem_singleton.2 rfl))
  · by_cases hown : "id" ∈ Members.keys own
    · exact Or.inl hown
    · rw [if_pos (c := rules.assignId = true ∧ _) ⟨hassign, hown⟩]
      exact Or.inr (Or.inr (List.mem_singleton.2 rfl))

/-- Nothing is added to a completed record, at any later time and with any ids. -/
theorem added_append_added (again : Supply) (place : ℕ) :
    added rules again place (own ++ added rules supply index own) = [] := by
  obtain ⟨htime, hid⟩ := mem_keys_append_added rules supply index own
  rw [added, if_neg fun h => h.2 (htime h.1), if_neg fun h => h.2 (hid h.1), List.append_nil]

/-- **Completing a record changes no value that was found in it.** -/
theorem lookup_append_added {field : String} {v : Value} (h : own.lookup field = some v) :
    lookup (own ++ added rules supply index own) field = some v := by
  refine lookup_append_of_found (fun m hm => (mem_added rules supply index own hm).2) ?_ h
  intro key hkey
  obtain ⟨m, hm, rfl⟩ := List.mem_map.1 hkey
  rcases (mem_added rules supply index own hm).1 with hname | hname <;> rw [hname] <;> decide

end Added

/-! ## The rules for one record -/

/-- A record meets the rules: it has members, and every required field is found. -/
def Meets (rules : Rules) (own : Record) : Prop :=
  own ≠ [] ∧ ∀ field ∈ rules.requiredFields, ∃ v, own.lookup field = some v

/-- An item goes against the rules, and this is what is said of it: of the required fields it is the
first missing one that is named. -/
inductive Fails (rules : Rules) (index : ℕ) : Value → Refusal → Prop
  | notAMap {item : Value} (h : item.members? = none) : Fails rules index item (.notAMap index)
  | empty : Fails rules index (.map []) (.emptyRecord index)
  | missing {own : Record} {before after : List String} {field : String} (hown : own ≠ [])
      (hfields : rules.requiredFields = before ++ field :: after)
      (hbefore : ∀ f ∈ before, ∃ v, own.lookup f = some v) (hfield : own.lookup field = none) :
      Fails rules index (.map own) (.missing index field)

/-- A completed record meets the rules that it met before. -/
theorem Meets.append_added {rules : Rules} {own : Record} (h : own.Meets rules) (supply : Supply)
    (index : ℕ) : Meets rules (own ++ added rules supply index own) := by
  refine ⟨fun hnil => h.1 (List.append_eq_nil_iff.1 hnil).1, fun field hfield => ?_⟩
  obtain ⟨v, hv⟩ := h.2 field hfield
  exact ⟨v, lookup_append_added rules supply index own hv⟩

end Record

/-- An item is accepted: it is a record that meets the rules. -/
def Value.IsAccepted (rules : Rules) (item : Value) : Prop :=
  ∃ own : Record, item = .map own ∧ own.Meets rules

namespace Record

variable {rules : Rules} {supply : Supply} {index : ℕ} {item : Value} {refusal : Refusal}

/-- What goes against the rules is not accepted. -/
theorem Fails.not_isAccepted (h : Fails rules index item refusal) : ¬item.IsAccepted rules := by
  rintro ⟨own, rfl, hown, hfound⟩
  cases h with
  | notAMap hmap => exact absurd hmap nofun
  | empty => exact hown rfl
  | missing _ hfields _ hfield =>
    obtain ⟨v, hv⟩ := hfound _ (hfields ▸ List.mem_append_right _ List.mem_cons_self)
    rw [hfield] at hv
    exact absurd hv nofun

/-- The wording begins with the place of the item. -/
theorem Fails.message_eq (h : Fails rules index item refusal) :
    ∃ rest, refusal.message = "Record " ++ toString index ++ " " ++ rest := by
  -- the space after the place is split off from the rest of the wording
  cases h with
  | notAMap =>
    have hspace : " is not a map" = " " ++ "is not a map" := by decide
    refine ⟨"is not a map", ?_⟩
    show "Record " ++ toString index ++ " is not a map" = _
    rw [hspace]
    exact String.append_assoc.symm
  | empty =>
    have hspace : " is empty" = " " ++ "is empty" := by decide
    refine ⟨"is empty", ?_⟩
    show "Record " ++ toString index ++ " is empty" = _
    rw [hspace]
    exact String.append_assoc.symm
  | @missing _ _ _ field =>
    have hspace : " is missing required field '" = " " ++ "is missing required field '" := by decide
    refine ⟨"is missing required field '" ++ field ++ "'", ?_⟩
    show "Record " ++ toString index ++ " is missing required field '" ++ field ++ "'" = _
    rw [hspace]
    simp only [String.append_assoc]

/-- A record with members is refused for the first of the required fields that is not found. -/
theorem accept_map (rules : Rules) (supply : Supply) (index : ℕ) {own : Record} (h : own ≠ []) :
    accept rules supply index (.map own)
      = (rules.requiredFields.find? fun field => (own.lookup field).isNone).elim
          (.ok (complete rules supply index own)) fun field => .error (.missing index field) := by
  obtain ⟨m, ms, rfl⟩ := List.exists_cons_of_ne_nil h
  rw [accept]
  · cases rules.requiredFields.find? _ <;> rfl
  · exact List.cons_ne_nil m ms

/-- An item is completed if it meets the rules, and refused for what it lacks otherwise. -/
theorem accept_cases (rules : Rules) (supply : Supply) (index : ℕ) (item : Value) :
    (∃ own : Record, item = .map own ∧ own.Meets rules ∧
      accept rules supply index item = .ok (own ++ added rules supply index own)) ∨
    ∃ refusal, Fails rules index item refusal ∧
      accept rules supply index item = .error refusal := by
  cases item with
  | map own =>
    by_cases hown : own = []
    · subst hown
      exact Or.inr ⟨_, .empty, rfl⟩
    rw [accept_map rules supply index hown]
    have hfound : ∀ f, (!(lookup own f).isNone) = true → ∃ v, lookup own f = some v := by
      intro f hf
      rwa [Option.not_isNone, Option.isSome_iff_exists] at hf
    cases hfind : rules.requiredFields.find? fun field => (lookup own field).isNone with
    | none =>
      refine Or.inl ⟨own, rfl, ⟨hown, fun field hfield => hfound field ?_⟩, ?_⟩
      · rw [Bool.not_eq_true']
        exact Bool.eq_false_iff.2 (List.find?_eq_none.1 hfind field hfield)
      · rw [Option.elim_none, complete_eq]
    | some field =>
      obtain ⟨hmissing, before, after, hfields, hbefore⟩ := List.find?_eq_some_iff_append.1 hfind
      exact Or.inr ⟨_, .missing hown hfields (fun f hf => hfound f (hbefore f hf))
        (Option.isNone_iff_eq_none.1 hmissing), rfl⟩
  | _ => exact Or.inr ⟨_, .notAMap rfl, rfl⟩

/-- **The items in turn.**  Either all of them meet the rules and are completed, each at its place,
or the first that does not is what the refusal is about.  The induction moves the place on. -/
theorem acceptAll_cases (rules : Rules) (supply : Supply) (items : List Value) (start : ℕ) :
    (∃ owns : List Record, items = owns.map .map ∧ (∀ own ∈ owns, own.Meets rules) ∧
      acceptAll rules supply start items
        = .ok (owns.mapIdx fun i own => own ++ added rules supply (start + i) own)) ∨
    ∃ before item after refusal, items = before ++ item :: after ∧
      (∀ x ∈ before, x.IsAccepted rules) ∧ Fails rules (start + before.length) item refusal ∧
      acceptAll rules supply start items = .error refusal := by
  induction items generalizing start with
  | nil => exact Or.inl ⟨[], rfl, fun _ h => absurd h List.not_mem_nil, rfl⟩
  | cons item items ih =>
    rcases accept_cases rules supply start item with ⟨own, rfl, hown, hfirst⟩ |
      ⟨refusal, hfails, hfirst⟩
    · rcases ih (start + 1) with ⟨owns, rfl, howns, hrest⟩ |
        ⟨before, bad, after, refusal, rfl, hbefore, hfails, hrest⟩
      · refine Or.inl ⟨own :: owns, rfl, List.forall_mem_cons.2 ⟨hown, howns⟩, ?_⟩
        rw [acceptAll, hfirst, hrest, List.mapIdx_cons]
        simp only [Nat.add_zero, Nat.add_assoc, Nat.add_comm 1]
      · refine Or.inr ⟨.map own :: before, bad, after, refusal, rfl,
          List.forall_mem_cons.2 ⟨⟨own, rfl, hown⟩, hbefore⟩, ?_, by rw [acceptAll, hfirst, hrest]⟩
        rwa [List.length_cons, Nat.add_comm before.length, ← Nat.add_assoc]
    · exact Or.inr ⟨[], item, items, refusal, rfl, fun _ h => absurd h List.not_mem_nil, hfails,
        by rw [acceptAll, hfirst]⟩

theorem acceptAll_eq_ok_iff {items : List Value} {records : List Record} {start : ℕ} :
    acceptAll rules supply start items = .ok records ↔
      ∃ owns : List Record, items = owns.map .map ∧ (∀ own ∈ owns, own.Meets rules) ∧
        records = owns.mapIdx fun i own => own ++ added rules supply (start + i) own := by
  constructor
  · intro h
    rcases acceptAll_cases rules supply items start with ⟨owns, hitems, howns, hall⟩ |
      ⟨-, -, -, refusal, -, -, -, hall⟩
    · rw [hall] at h
      exact ⟨owns, hitems, howns, (Except.ok.inj h).symm⟩
    · rw [hall] at h
      exact absurd h nofun
  · rintro ⟨owns, rfl, howns, rfl⟩
    rcases acceptAll_cases rules supply (owns.map .map) start with ⟨others, hothers, -, hall⟩ |
      ⟨before, item, after, refusal, hitems, -, hfails, -⟩
    · have hsame : owns = others := (List.map_inj_right fun _ _ => Value.map.inj).1 hothers
      rw [hall, hsame]
    · have hitem : item ∈ owns.map Value.map :=
        hitems ▸ List.mem_append_right before List.mem_cons_self
      obtain ⟨own, hown, rfl⟩ := List.mem_map.1 hitem
      exact absurd ⟨own, rfl, howns own hown⟩ hfails.not_isAccepted

end Record

/-! ## Payloads -/

namespace Payload

/-- The items that a payload holds: a map is one item, and a list has items unless it is empty. -/
inductive Holds : Value → List Value → Prop
  | one (own : Record) : Holds (.map own) [.map own]
  | batch {items : List Value} (h : items ≠ []) : Holds (.list items) items

theorem items_eq_ok_iff {payload : Value} {found : List Value} :
    items payload = .ok found ↔ Holds payload found := by
  constructor
  · intro h
    cases payload with
    | map own =>
      obtain rfl := Except.ok.inj h
      exact .one own
    | list xs =>
      cases xs with
      | nil => exact absurd h nofun
      | cons x xs =>
        obtain rfl := Except.ok.inj h
        exact .batch (List.cons_ne_nil _ _)
    | _ => exact absurd h nofun
  · rintro (⟨own⟩ | ⟨h⟩)
    · rfl
    · obtain ⟨x, xs, rfl⟩ := List.exists_cons_of_ne_nil h
      rfl

theorem Holds.ne_nil {payload : Value} {items : List Value} (h : Holds payload items) :
    items ≠ [] := by
  cases h with
  | one own => exact List.cons_ne_nil _ _
  | batch h => exact h

variable {rules : Rules} {supply : Supply} {payload : Value}

/-- A payload that holds no more items than a batch may have is decided by its items. -/
theorem prepare_of_holds {items : List Value} (h : Holds payload items)
    (hmost : items.length ≤ rules.maxBatch) :
    prepare rules supply payload = Record.acceptAll rules supply 0 items := by
  rw [prepare, items_eq_ok_iff.2 h]
  exact if_neg (Nat.not_lt.2 hmost)

/-- **Payloads that are accepted**, and the records that come of them. -/
theorem prepare_eq_ok_iff {records : List Record} :
    prepare rules supply payload = .ok records ↔
      ∃ owns : List Record, Holds payload (owns.map .map) ∧ owns.length ≤ rules.maxBatch ∧
        (∀ own ∈ owns, own.Meets rules) ∧
        records = owns.mapIdx fun i own => own ++ Record.added rules supply i own := by
  constructor
  · intro h
    cases hitems : items payload with
    | error refusal =>
      rw [prepare, hitems] at h
      exact absurd h nofun
    | ok found =>
      have hholds : Holds payload found := items_eq_ok_iff.1 hitems
      by_cases hmost : found.length ≤ rules.maxBatch
      · rw [prepare_of_holds hholds hmost, Record.acceptAll_eq_ok_iff] at h
        obtain ⟨owns, rfl, howns, rfl⟩ := h
        rw [List.length_map] at hmost
        exact ⟨owns, hholds, hmost, howns, by simp only [Nat.zero_add]⟩
      · rw [prepare, hitems] at h
        have hmany : rules.maxBatch < found.length := Nat.not_le.1 hmost
        simp only [if_pos hmany] at h
        exact absurd h nofun
  · rintro ⟨owns, hholds, hmost, howns, rfl⟩
    rw [prepare_of_holds hholds (by rwa [List.length_map]), Record.acceptAll_eq_ok_iff]
    exact ⟨owns, rfl, howns, by simp only [Nat.zero_add]⟩

/-- **Completed records are accepted as they are.**  They meet the rules again, and whatever the
time and the ids are by then, nothing is added to them. -/
theorem prepare_completed {owns records : List Record} (hne : owns ≠ [])
    (hmost : owns.length ≤ rules.maxBatch) (howns : ∀ own ∈ owns, own.Meets rules)
    (hrecords : records = owns.mapIdx fun i own => own ++ Record.added rules supply i own)
    (again : Supply) :
    (∀ record ∈ records, record.Meets rules) ∧
      prepare rules again (.list (records.map .map)) = .ok records := by
  subst hrecords
  have hmeets : ∀ record ∈ owns.mapIdx fun i own => own ++ Record.added rules supply i own,
      record.Meets rules := by
    intro record hrecord
    obtain ⟨i, hi, rfl⟩ := List.mem_mapIdx.1 hrecord
    exact (howns _ (List.getElem_mem hi)).append_added supply i
  refine ⟨hmeets, prepare_eq_ok_iff.2 ⟨_, .batch ?_, ?_, hmeets, ?_⟩⟩
  · rw [ne_eq, List.map_eq_nil_iff, List.mapIdx_eq_nil_iff]
    exact hne
  · rwa [List.length_mapIdx]
  · rw [List.mapIdx_mapIdx]
    refine congrArg (List.mapIdx · owns) (funext fun i => funext fun own => ?_)
    rw [Function.comp_apply, Record.added_append_added, List.append_nil]

/-- The first item that goes against the rules is what the refusal of a batch is about. -/
theorem exists_fails_of_prepare {items : List Value} {refusal : Refusal} (h : Holds payload items)
    (hmost : items.length ≤ rules.maxBatch)
    (herror : prepare rules supply payload = .error refusal) :
    ∃ before item after, items = before ++ item :: after ∧ (∀ x ∈ before, x.IsAccepted rules) ∧
      Record.Fails rules before.length item refusal := by
  rw [prepare_of_holds h hmost] at herror
  rcases Record.acceptAll_cases rules supply items 0 with ⟨owns, -, -, hall⟩ |
    ⟨before, item, after, refusal', hitems, hbefore, hfails, hall⟩
  · rw [hall] at herror
    exact absurd herror nofun
  · rw [hall] at herror
    obtain rfl := Except.error.inj herror
    rw [Nat.zero_add] at hfails
    exact ⟨before, item, after, hitems, hbefore, hfails⟩

/-- **A payload is accepted or refused as a whole.**

It is accepted exactly if it holds records only, no more than a batch may have, and each of them
meets the rules.  Then there is one completed record for each, in order: its own members, and behind
them a time and an id if the rules ask for these and there is no key of the name.  The completed
records meet the rules, and if they come in a second time nothing is added to them.

A payload that is refused for one of its items is refused for the first that does not meet the
rules, and the wording names its place.  A single record is a batch of one. -/
theorem prepare_all_or_none (rules : Rules) (supply : Supply) (payload : Value) :
    ((∃ records, prepare rules supply payload = .ok records) ↔
      ∃ owns : List Record, Holds payload (owns.map .map) ∧ owns.length ≤ rules.maxBatch ∧
        ∀ own ∈ owns, own.Meets rules) ∧
    (∀ records, prepare rules supply payload = .ok records →
      (∃ owns : List Record, Holds payload (owns.map .map) ∧
        records = owns.mapIdx fun i own => own ++ Record.added rules supply i own) ∧
      (∀ record ∈ records, record.Meets rules) ∧
      ∀ again, prepare rules again (.list (records.map .map)) = .ok records) ∧
    (∀ items refusal, Holds payload items → items.length ≤ rules.maxBatch →
      prepare rules supply payload = .error refusal →
      ∃ before item after, items = before ++ item :: after ∧
        (∀ x ∈ before, x.IsAccepted rules) ∧ ¬item.IsAccepted rules ∧
        Record.Fails rules before.length item refusal ∧
        ∃ rest, refusal.message = "Record " ++ toString before.length ++ " " ++ rest) ∧
    ∀ own : Record, payload = .map own →
      prepare rules supply payload = prepare rules supply (.list [payload]) := by
  refine ⟨⟨?_, ?_⟩, fun records h => ?_, fun items refusal hholds hmost h => ?_, ?_⟩
  · rintro ⟨records, h⟩
    obtain ⟨owns, hholds, hmost, howns, -⟩ := prepare_eq_ok_iff.1 h
    exact ⟨owns, hholds, hmost, howns⟩
  · rintro ⟨owns, hholds, hmost, howns⟩
    exact ⟨_, prepare_eq_ok_iff.2 ⟨owns, hholds, hmost, howns, rfl⟩⟩
  · obtain ⟨owns, hholds, hmost, howns, hrecords⟩ := prepare_eq_ok_iff.1 h
    have hne : owns ≠ [] := fun hnil => hholds.ne_nil (List.map_eq_nil_iff.2 hnil)
    have hagain := prepare_completed hne hmost howns hrecords
    exact ⟨⟨owns, hholds, hrecords⟩, (hagain supply).1, fun again => (hagain again).2⟩
  · obtain ⟨before, item, after, hitems, hbefore, hfails⟩ := exists_fails_of_prepare hholds hmost h
    exact ⟨before, item, after, hitems, hbefore, hfails.not_isAccepted, hfails, hfails.message_eq⟩
  · rintro own rfl
    rfl

/-- Rules that ask for a path and add what is missing. -/
def pathRules : Rules := ⟨true, true, ["ctx.service"], 4⟩

/-- A record with the path and a time that is null, and one with a key that is spelled like the path
and another that begins like a time. -/
def pathRecords : List Record :=
  [[("timestamp", .null), ("ctx", .map [("service", .str "db")])],
    [("ctx.service", .null), ("timestamp.zone", .str "UTC"), ("id", .null)]]

/-- What comes of them. -/
def completedPathRecords : List Record :=
  [[("timestamp", .null), ("ctx", .map [("service", .str "db")]), ("id", .str "first")],
    [("ctx.service", .null), ("timestamp.zone", .str "UTC"), ("id", .null),
      ("timestamp", .str "noon")]]

/-- The records are completed once and come back as they are.  Behind them an item without the path
is refused, and not the item after it. -/
theorem prepare_all_or_none_pathRecords :
    prepare pathRules ⟨"noon", fun _ => "first"⟩ (.list (pathRecords.map .map))
        = .ok completedPathRecords ∧
      prepare pathRules ⟨"midnight", fun _ => "second"⟩ (.list (completedPathRecords.map .map))
        = .ok completedPathRecords ∧
      ∃ refusal, prepare pathRules ⟨"noon", fun _ => "first"⟩
          (.list (pathRecords.map .map ++ [.map [("ctx", .str "db")], .null])) = .error refusal ∧
        refusal.message = "Record 2 is missing required field 'ctx.service'" := by
  have hfirst : prepare pathRules ⟨"noon", fun _ => "first"⟩ (.list (pathRecords.map .map))
      = .ok completedPathRecords := rfl
  obtain ⟨-, haccepted, -, -⟩ := prepare_all_or_none pathRules ⟨"noon", fun _ => "first"⟩
    (.list (pathRecords.map .map))
  refine ⟨hfirst, (haccepted _ hfirst).2.2 _, _, rfl, ?_⟩
  decide +kernel

end Payload

end Logbook
