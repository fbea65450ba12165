import Logbook.Proofs.Query.Placement
import Logbook.Proofs.Value.Order

/-!
# Issues and the places they name

The path of an issue is put together on the way down through a query that may be wrong in every way,
and nobody looks at the query again to see where the path leads.  It leads to a value that is there,
and the issue speaks of this value: what it quotes stands at that place, what it misses is missing
from it, and it is wrong in the way that is reported.

An issue is made where the mistake is, with no path, and every level above puts one step in front of
it.  So two things are to be seen: that a check says something true of the value in its hands, and
that each step leads from one value to the value that was handed down (`Issue.StandsIn.under`).  A
key that nobody knows is the exception.  It is a mistake of the step, not of the value behind it,
and so a cause may also speak of the last step of the path.

A map with a key twice has a member that no path leads to, so the statement on queries is about
well-formed values.

* `Cause.Says`: what a cause says of the value at the end of a path.
* `Issue.StandsIn`, `Issue.AllStandIn`: issues that lead to a value of which they are true.
* `Clause.mem_issues_map`: where the issues of a map come from.
* `Clause.allStandIn_issues`: the issues of a clause.
* `Query.issues_lead_into_query`: the issues of a query.
-/

namespace Logbook

/-! ## What issues say -/

/-- What a cause says of the last step of a path and of the value at its end. -/
def Cause.Says : Cause → Option Step → Value → Prop
  | .notAQuery got, _, v => v = got ∧ v.members? = none
  | .unknownKey key, last, _ => last = some (.key key) ∧ key ∉ queryKeys
  | .badName name, _, v => v = .str name ∧ ¬IsFieldName v
  | .notAName got, _, v => v = got ∧ v.string? = none
  | .noNames, _, v => v = .list []
  | .notNames got, _, v => v = got ∧ v.items? = none
  | .reserved name, _, v => v = .str name ∧ (name = "count" ∨ name = "entries")
  | .notAClause got, _, v => v = got ∧ v.members? = none
  | .shapeless, _, v => ∃ ms, v = .map ms ∧ ∀ s : Shape, ∀ key ∈ s.keys, key ∉ Members.keys ms
  | .mixed shapes, _, v => 2 ≤ shapes.length ∧ shapes.Nodup ∧ ∃ ms, v = .map ms ∧
      ∀ s, s ∈ shapes ↔ ∃ key ∈ s.keys, key ∈ Members.keys ms
  | .unknownClauseKey, last, _ => ∃ key, last = some (.key key) ∧ ∀ s : Shape, key ∉ s.keys
  | .notClauses got, _, v => v = got ∧ v.items? = none
  | .missing key, _, v => key ∈ Condition.keys ∧ ∃ ms, v = .map ms ∧ key ∉ Members.keys ms
  | .unknownOperator name, _, v => v = .str name ∧ name ∉ operatorNames
  | .notAnOperator got, _, v => v = got ∧ v.string? = none
  | .operandNotAList got, _, v => v = got ∧ v.items? = none
  | .operandNotAString _ got, _, v => v = got ∧ v.string? = none
  | .notOrderKeys got, _, v => v = got ∧ v.items? = none
  | .notAnOrderKey, _, v => v.string? = none ∧ ∀ field direction, v ≠ .list [field, direction]
  | .badDirection got, _, v => v = got ∧ ∀ d : Direction, v ≠ .str d.name
  | .notANatural got, _, v => v = got ∧ ¬IsNatural v
  | .unreadable, _, _ => False

/-- What is said without a look at the path stays true with one. -/
theorem Cause.Says.of_none {cause : Cause} {v : Value} (h : cause.Says none v)
    (last : Option Step) : cause.Says last v := by
  cases cause with
  | unknownKey key => exact absurd h.1 nofun
  | unknownClauseKey => exact absurd h.choose_spec.1 nofun
  | _ => exact h

/-- A path says what it said when it gets a step in front. -/
theorem Cause.Says.cons {cause : Cause} {path : Path} {v : Value}
    (h : cause.Says path.getLast? v) (step : Step) : cause.Says (step :: path).getLast? v := by
  cases path with
  | nil => exact h.of_none _
  | cons next path => rwa [List.getLast?_cons_cons]

namespace Issue

/-- Holds of an issue whose path leads to a part of the value, of which its cause is true. -/
def StandsIn (issue : Issue) (v : Value) : Prop :=
  ∃ sub, v.resolve? issue.path = some sub ∧ issue.cause.Says issue.path.getLast? sub

/-- Holds of issues that all lead to parts of the value. -/
def AllStandIn (found : List Issue) (v : Value) : Prop := ∀ issue ∈ found, issue.StandsIn v

variable {v w : Value} {found more : List Issue}

theorem allStandIn_nil (v : Value) : AllStandIn [] v :=
  fun _ h => absurd h List.not_mem_nil

theorem allStandIn_singleton {issue : Issue} (h : issue.StandsIn v) : AllStandIn [issue] v :=
  List.forall_mem_singleton.2 h

theorem AllStandIn.append (h : AllStandIn found v) (hmore : AllStandIn more v) :
    AllStandIn (found ++ more) v :=
  List.forall_mem_append.2 ⟨h, hmore⟩

/-- An issue of the value at hand. -/
theorem allStandIn_here {cause : Cause} (h : cause.Says none v) : AllStandIn [here cause] v :=
  allStandIn_singleton ⟨v, rfl, h⟩

/-- **A step that leads from a value to another takes the issues of the other along.** -/
theorem StandsIn.under {step : Step} (hstep : v.resolve? [step] = some w) {issue : Issue}
    (h : issue.StandsIn w) : (issue.under step).StandsIn v := by
  obtain ⟨sub, hsub, hsays⟩ := h
  refine ⟨sub, ?_, hsays.cons step⟩
  rw [path_under, ← List.singleton_append, Value.resolve?_append, hstep]
  exact hsub

theorem AllStandIn.under {step : Step} (hstep : v.resolve? [step] = some w)
    (h : AllStandIn found w) : AllStandIn (found.map (Issue.under step)) v :=
  List.forall_mem_map.2 fun issue hissue => (h issue hissue).under hstep

end Issue

open Issue (AllStandIn allStandIn_nil allStandIn_here allStandIn_singleton)

/-- The issues of the items of a list lead into the list. -/
theorem Issue.allStandIn_ofItems {issues : Value → List Issue} {xs : List Value}
    (h : ∀ x ∈ xs, AllStandIn (issues x) x) : AllStandIn (ofItems issues 0 xs) (.list xs) := by
  intro issue hissue
  rw [ofItems_eq_flatMap, List.mem_flatMap] at hissue
  obtain ⟨⟨x, i⟩, hx, hissue⟩ := hissue
  have hitem : xs[i]? = some x := List.mem_zipIdx_iff_getElem?.1 hx
  have hstep : (Value.list xs).resolve? [.index i] = some x := by
    rw [Value.resolve?_index, hitem]
  exact (h x (List.mem_of_getElem? hitem)).under hstep issue hissue

/-! ## Names, lists and order keys -/

namespace Field

theorem allStandIn_issues (v : Value) : AllStandIn (Field.issues v) v := by
  cases v with
  | str name =>
    have hiff := Field.issues_eq_nil_iff (v := .str name)
    rw [Field.issues] at hiff ⊢
    split
    · exact allStandIn_nil _
    · rename_i hname
      rw [if_neg hname] at hiff
      exact allStandIn_here ⟨rfl, fun h => absurd (hiff.2 h) (List.cons_ne_nil _ _)⟩
  | _ => exact allStandIn_here ⟨rfl, rfl⟩

theorem allStandIn_listIssues (v : Value) : AllStandIn (listIssues v) v := by
  unfold listIssues
  split
  · exact allStandIn_here rfl
  · exact Issue.allStandIn_ofItems fun x _ => allStandIn_issues x
  · rename_i hlist
    refine allStandIn_here ⟨rfl, ?_⟩
    cases v with
    | list xs => exact absurd rfl (hlist xs)
    | _ => rfl

theorem allStandIn_reservedIssues (v : Value) : AllStandIn (reservedIssues v) v := by
  cases v with
  | str name =>
    rw [reservedIssues]
    split
    · rename_i hname
      exact allStandIn_here ⟨rfl, hname⟩
    · exact allStandIn_nil _
  | _ => exact allStandIn_nil _

theorem allStandIn_groupIssues (v : Value) : AllStandIn (groupIssues v) v := by
  cases v with
  | list xs => exact Issue.allStandIn_ofItems fun x _ => allStandIn_reservedIssues x
  | _ => exact allStandIn_nil _

end Field

namespace OrderKey

theorem allStandIn_directionIssues (v : Value) : AllStandIn (directionIssues v) v := by
  cases v with
  | str name =>
    rw [directionIssues]
    cases hname : Direction.ofName? name with
    | some d => exact allStandIn_nil _
    | none =>
      refine allStandIn_here ⟨rfl, fun d hd => ?_⟩
      rw [Value.str.inj hd, Direction.ofName?_name] at hname
      exact absurd hname (Option.some_ne_none d)
  | _ => exact allStandIn_here ⟨rfl, fun _ => Value.noConfusion⟩

theorem allStandIn_issues (v : Value) : AllStandIn (OrderKey.issues v) v := by
  unfold OrderKey.issues
  split
  · exact Field.allStandIn_issues _
  · rename_i field direction
    have hfield : (Value.list [field, direction]).resolve? [.index 0] = some field := rfl
    have hdirection : (Value.list [field, direction]).resolve? [.index 1] = some direction := rfl
    exact ((Field.allStandIn_issues field).under hfield).append
      ((allStandIn_directionIssues direction).under hdirection)
  · rename_i hstr hpair
    refine allStandIn_here ⟨?_, hpair⟩
    cases v with
    | str name => exact absurd rfl (hstr name)
    | _ => rfl

theorem allStandIn_listIssues (v : Value) : AllStandIn (OrderKey.listIssues v) v := by
  cases v with
  | list keys => exact Issue.allStandIn_ofItems fun x _ => allStandIn_issues x
  | _ => exact allStandIn_here ⟨rfl, rfl⟩

end OrderKey

theorem Query.allStandIn_naturalIssues (v : Value) : AllStandIn (naturalIssues v) v := by
  have hiff := naturalIssues_eq_nil_iff (v := v)
  unfold naturalIssues at hiff ⊢
  split
  · exact allStandIn_nil _
  · rename_i hnone
    rw [hnone] at hiff
    exact allStandIn_here ⟨rfl, fun h => absurd (hiff.2 h) (List.cons_ne_nil _ _)⟩

/-! ## Conditions -/

namespace Condition

variable (ms : Members)

theorem allStandIn_missingIssues : AllStandIn (missingIssues ms) (.map ms) := by
  refine List.forall_mem_map.2 fun key hkey => ?_
  obtain ⟨hmem, hhas⟩ := List.mem_filter.1 hkey
  rw [Bool.not_eq_true', Bool.eq_false_iff, ne_eq, Members.has_iff] at hhas
  exact ⟨.map ms, rfl, hmem, ms, rfl, hhas⟩

theorem allStandIn_fieldIssues : AllStandIn (fieldIssues ms) (.map ms) := by
  unfold fieldIssues
  split
  · rename_i v hv
    exact (Field.allStandIn_issues v).under ((Value.resolve?_key _ _).trans hv)
  · exact allStandIn_nil _

theorem allStandIn_operatorIssues : AllStandIn (operatorIssues ms) (.map ms) := by
  unfold operatorIssues
  split
  · rename_i name hv
    split
    · exact allStandIn_nil _
    · rename_i hname
      have hsays : (Cause.unknownOperator name).Says none (.str name) := by
        refine ⟨rfl, fun hknown => ?_⟩
        obtain ⟨op, rfl⟩ := mem_operatorNames_iff.1 hknown
        rw [Operator.ofName?_name] at hname
        exact absurd hname nofun
      exact (allStandIn_here hsays).under ((Value.resolve?_key _ _).trans hv)
  · rename_i v hstr hv
    have hsays : (Cause.notAnOperator v).Says none v := by
      refine ⟨rfl, ?_⟩
      cases v with
      | str name => exact absurd rfl (hstr name)
      | _ => rfl
    exact (allStandIn_here hsays).under ((Value.resolve?_key _ _).trans hv)
  · exact allStandIn_nil _

/-- What is wrong with an operand is true of it. -/
theorem says_of_operandCause? {op : Operator} {v : Value} {cause : Cause}
    (h : operandCause? op v = some cause) : cause.Says none v := by
  unfold operandCause? at h
  split at h
  case h_1 | h_3 | h_5 | h_7 => exact absurd h nofun
  all_goals
    obtain rfl := Option.some.inj h
    refine ⟨rfl, ?_⟩
    cases v <;> first | rfl | simp_all

theorem allStandIn_operandIssues : AllStandIn (operandIssues ms) (.map ms) := by
  unfold operandIssues
  split
  · rename_i op v _ hv
    split
    · rename_i cause hcause
      exact (allStandIn_here (says_of_operandCause? hcause)).under
        ((Value.resolve?_key _ _).trans hv)
    · exact allStandIn_nil _
  · exact allStandIn_nil _

theorem allStandIn_issues : AllStandIn (Condition.issues ms) (.map ms) :=
  (((allStandIn_missingIssues ms).append (allStandIn_fieldIssues ms)).append
    (allStandIn_operatorIssues ms)).append (allStandIn_operandIssues ms)

end Condition

/-! ## Clauses -/

namespace Clause

theorem issuesUnderList_eq (key : String) (ms : Members) :
    issuesUnderList key ms = (Members.get? key ms).elim [] fun v =>
      (listIssues v).map (Issue.under (.key key)) :=
  Members.search_eq (by rw [issuesUnderList]) (fun _ _ _ => by rw [issuesUnderList]) ms

theorem issuesUnder_eq (key : String) (ms : Members) :
    issuesUnder key ms = (Members.get? key ms).elim [] fun v =>
      (issues v).map (Issue.under (.key key)) :=
  Members.search_eq (by rw [issuesUnder]) (fun _ _ _ => by rw [issuesUnder]) ms

/-- **Where the issues of a map come from.**  The map shows no shape, or several, or else its issues
are unknown keys and those of the one shape. -/
theorem mem_issues_map {ms : Members} {issue : Issue} (h : issue ∈ issues (.map ms)) :
    (shapes ms = [] ∧ issue = .here .shapeless) ∨
      (2 ≤ (shapes ms).length ∧ issue = .here (.mixed (shapes ms))) ∨
      issue ∈ unknownKeyIssues ms ∨ ∃ s, issue ∈ bodyIssues ms s := by
  have hone : ∀ s, issue ∈ unknownKeyIssues ms ++ bodyIssues ms s →
      issue ∈ unknownKeyIssues ms ∨ ∃ s, issue ∈ bodyIssues ms s :=
    fun s h => (List.mem_append.1 h).imp_right fun h => ⟨s, h⟩
  rw [issues] at h
  split at h
  · rename_i hshapes
    exact Or.inl ⟨hshapes, List.mem_singleton.1 h⟩
  · exact Or.inr (Or.inr (hone .condition h))
  · exact Or.inr (Or.inr (hone .conj h))
  · exact Or.inr (Or.inr (hone .disj h))
  · exact Or.inr (Or.inr (hone .neg h))
  · rename_i hnil hcondition hconj hdisj hneg
    refine Or.inr (Or.inl ⟨?_, List.mem_singleton.1 h⟩)
    rcases hshapes : shapes ms with _ | ⟨s, _ | ⟨t, more⟩⟩
    · exact absurd hshapes hnil
    · cases s
      · exact absurd hshapes hcondition
      · exact absurd hshapes hconj
      · exact absurd hshapes hdisj
      · exact absurd hshapes hneg
    · exact Nat.le_add_left 2 more.length

theorem allStandIn_unknownKeyIssues (ms : Members) :
    AllStandIn (unknownKeyIssues ms) (.map ms) := by
  have hkeys : ∀ {key : String} {s : Shape}, key ∈ s.keys →
      key ∈ Condition.keys ++ ["and", "or", "not"] := by
    intro key s hkey
    cases s <;> revert key <;> decide
  refine List.forall_mem_map.2 fun key hkey => ?_
  obtain ⟨hmem, hunknown⟩ := List.mem_filter.1 hkey
  rw [Bool.not_eq_true', Bool.eq_false_iff, ne_eq, List.contains_iff_mem] at hunknown
  obtain ⟨v, hv⟩ := Members.mem_keys_iff.1 hmem
  exact ⟨v, (Value.resolve?_key _ _).trans hv, key, rfl, fun s hs => hunknown (hkeys hs)⟩

theorem allStandIn_issuesUnderList {key : String} {ms : Members}
    (h : ∀ v, Members.get? key ms = some v → AllStandIn (listIssues v) v) :
    AllStandIn (issuesUnderList key ms) (.map ms) := by
  rw [issuesUnderList_eq]
  cases hv : Members.get? key ms with
  | none => exact allStandIn_nil _
  | some v => exact (h v hv).under ((Value.resolve?_key _ _).trans hv)

theorem allStandIn_issuesUnder {key : String} {ms : Members}
    (h : ∀ v, Members.get? key ms = some v → AllStandIn (issues v) v) :
    AllStandIn (issuesUnder key ms) (.map ms) := by
  rw [issuesUnder_eq]
  cases hv : Members.get? key ms with
  | none => exact allStandIn_nil _
  | some v => exact (h v hv).under ((Value.resolve?_key _ _).trans hv)

/-- The issues of a map lead into it if those of the values in it lead into these. -/
theorem allStandIn_issues_map {ms : Members}
    (h : ∀ m ∈ ms, AllStandIn (issues m.2) m.2 ∧ AllStandIn (listIssues m.2) m.2) :
    AllStandIn (issues (.map ms)) (.map ms) := by
  have hmember : ∀ {key v}, Members.get? key ms = some v →
      AllStandIn (issues v) v ∧ AllStandIn (listIssues v) v :=
    fun hv => h _ (Members.mem_of_get? hv)
  intro issue hissue
  rcases mem_issues_map hissue with ⟨hshapes, rfl⟩ | ⟨hmany, rfl⟩ | hissue | ⟨s, hissue⟩
  · refine ⟨_, rfl, ms, rfl, fun s key hkey hmem => ?_⟩
    have hs : s ∈ shapes ms := mem_shapes_iff.2 ⟨key, hkey, hmem⟩
    rw [hshapes] at hs
    exact absurd hs List.not_mem_nil
  · exact ⟨_, rfl, hmany, nodup_shapes ms, ms, rfl, fun s => mem_shapes_iff⟩
  · exact allStandIn_unknownKeyIssues ms issue hissue
  · cases s with
    | condition => exact Condition.allStandIn_issues ms issue hissue
    | conj => exact allStandIn_issuesUnderList (fun v hv => (hmember hv).2) issue hissue
    | disj => exact allStandIn_issuesUnderList (fun v hv => (hmember hv).2) issue hissue
    | neg => exact allStandIn_issuesUnder (fun v hv => (hmember hv).1) issue hissue

theorem allStandIn_issues_of_not_map {v : Value} (h : v.members? = none) :
    AllStandIn (issues v) v := by
  cases v with
  | map ms => exact absurd h nofun
  | _ =>
    rw [issues]
    · exact allStandIn_here ⟨rfl, rfl⟩
    · exact fun _ => Value.noConfusion

theorem allStandIn_listIssues_of_not_list {v : Value} (h : v.items? = none) :
    AllStandIn (listIssues v) v := by
  cases v with
  | list xs => exact absurd h nofun
  | _ =>
    rw [listIssues]
    · exact allStandIn_here ⟨rfl, rfl⟩
    · exact fun _ => Value.noConfusion

/-- **The issues of a clause, and those of a list of clauses, lead into it.**  The induction is on the
value and carries both, since a list under `and` or `or` is checked in another way than a clause. -/
theorem allStandIn_issues (v : Value) :
    AllStandIn (issues v) v ∧ AllStandIn (listIssues v) v := by
  induction v using Value.induction with
  | list xs ih =>
    refine ⟨allStandIn_issues_of_not_map rfl, ?_⟩
    rw [listIssues, itemIssues_eq_ofItems]
    exact Issue.allStandIn_ofItems fun x hx => (ih x hx).1
  | map ms ih => exact ⟨allStandIn_issues_map ih, allStandIn_listIssues_of_not_list rfl⟩
  | _ => exact ⟨allStandIn_issues_of_not_map rfl, allStandIn_listIssues_of_not_list rfl⟩

end Clause

/-! ## Queries -/

namespace Query

/-- What is wrong with a member of a query leads into the query. -/
theorem allStandIn_memberIssues {ms : Members} {key : String} {v : Value}
    (hv : Members.get? key ms = some v) :
    AllStandIn ((memberIssues key v).map (Issue.under (.key key))) (.map ms) := by
  have hstep : (Value.map ms).resolve? [.key key] = some v := (Value.resolve?_key _ _).trans hv
  unfold memberIssues
  split
  · exact (Field.allStandIn_listIssues v).under hstep
  split
  · exact ((Field.allStandIn_listIssues v).append (Field.allStandIn_groupIssues v)).under hstep
  split
  · exact (Clause.allStandIn_issues v).1.under hstep
  split
  · exact (OrderKey.allStandIn_listIssues v).under hstep
  split
  · exact (allStandIn_naturalIssues v).under hstep
  · refine allStandIn_singleton ⟨v, hstep, rfl, ?_⟩
    simp_all [Cause.queryKeys]

/-- **Every issue leads to a value in the query, and is true of it.**  What is reported as the path of
the issue is a list of keys and indices as it is written, and these lead, from the query on, to a value
that is there.  At this value is what the issue quotes or misses. -/
theorem issues_lead_into_query {raw : Value} (hwf : raw.WellFormed) :
    ∀ issue ∈ issues raw, ∃ (steps : Path) (sub : Value),
      raw.resolve? steps = some sub ∧
      issue.toValue = .map [("path", .str ("$" ++ String.join (steps.map Step.text))),
        ("message", .str issue.message)] ∧
      issue.cause.Says steps.getLast? sub := by
  have hall : AllStandIn (issues raw) raw := by
    cases raw with
    | map ms =>
      rw [Value.WellFormed] at hwf
      intro issue hissue
      rw [issues, List.mem_flatMap] at hissue
      obtain ⟨⟨key, v⟩, hmem, hissue⟩ := hissue
      exact allStandIn_memberIssues ((Members.get?_eq_some_iff hwf.1).2 hmem) issue hissue
    | _ => exact allStandIn_here ⟨rfl, rfl⟩
  intro issue hissue
  obtain ⟨sub, hsub, hsays⟩ := hall issue hissue
  exact ⟨issue.path, sub, hsub, rfl, hsays⟩

/-- A query with an empty list of names, a null for a list of clauses, a condition without a value whose
operator is none, an order key whose direction is none, and an unknown key. -/
def garbledQuery : Value :=
  .map [("find", .list []),
    ("where", .map [("and", .list [.map [("or", .null)],
      .map [("not", .map [("field", .str "a"), ("operator", .str "like")])]])]),
    ("order-by", .list [.list [.str "a", .str "up"]]),
    ("sort", .null)]

/-- Its issues stand in six places. -/
theorem issues_lead_into_query_garbledQuery :
    garbledQuery.WellFormed ∧
      (issues garbledQuery).map (fun issue => issue.path.text)
        = ["$.find", "$.where.and[0].or", "$.where.and[1].not", "$.where.and[1].not.operator",
          "$.order-by[0][1]", "$.sort"] ∧
      ∀ issue ∈ issues garbledQuery, ∃ (steps : Path) (sub : Value),
        garbledQuery.resolve? steps = some sub ∧
        Path.text steps = issue.path.text ∧
        issue.cause.Says steps.getLast? sub := by
  have hwf : garbledQuery.WellFormed := by
    simp [garbledQuery, Value.WellFormed, Value.WellFormedMembers, Value.WellFormedItems,
      Members.keys]
  refine ⟨hwf, by decide +kernel, fun issue hissue => ?_⟩
  obtain ⟨steps, sub, hsub, hvalue, hsays⟩ := issues_lead_into_query hwf issue hissue
  have hpath := congrArg (fun v : Value => (v.members?.getD []).map (·.2)) hvalue
  exact ⟨steps, sub, hsub, (Value.str.inj (List.cons.inj hpath).1).symm, hsays⟩

end Query

end Logbook
