import Mathlib.Data.List.Infix
import Logbook.Proofs.Query.Grammar
import Logbook.Proofs.Value.Paths

/-!
# Where issues stand

The check of a query goes down through its clauses, with one list for all issues and a path that
grows on the way.  What it says about a part of the query depends on nothing but this part: the part
may be taken out and checked alone, and the issues are the same, only that their paths start
elsewhere.

A clause with a hole is a list of layers, outermost first.  A layer is a negation, or a junction
with the clauses beside the hole; these are any values, however wrong.  What is found around the
hole does not depend on its filling, and stands elsewhere; what is found in the filling stands under
the place of the hole (`Isolates`).  This holds of one layer, and it composes.

* `Layer.fill`, `Layer.location`: a clause with a hole, filled, and the place of the hole.
* `Issue.beneath`, `Issue.moved`: an issue seen from further above, and from another place.
* `Isolates`, `Isolates.comp`: a hole whose issues are kept apart.
* `Layer.isolates`, `Layer.isolates_fill`: one layer, and layers.
* `Query.isolates_member`: the clause of a query.
* `Query.issues_stand_apart`: the parts of a query.
-/

namespace Logbook

/-! ## Clauses with a hole -/

/-- The clauses that are made of a list of clauses. -/
inductive Junction where
  | conj
  | disj

/-- The key of a junction. -/
def Junction.key : Junction → String
  | conj => "and"
  | disj => "or"

/-- The junction of clauses. -/
def Junction.of (junction : Junction) (clauses : List Value) : Value :=
  .map [(junction.key, .list clauses)]

/-- What is right around a clause: a junction with other clauses, or a negation. -/
inductive Layer where
  | among (junction : Junction) (before after : List Value)
  | negation

namespace Layer

/-- The clause with a layer around it. -/
def wrap : Layer → Value → Value
  | among junction before after, v => junction.of (before ++ v :: after)
  | negation, v => .map [("not", v)]

/-- The way through a layer. -/
def steps : Layer → Path
  | among junction before _ => [.key junction.key, .index before.length]
  | negation => [.key "not"]

/-- The clause with layers around it, the outermost first. -/
def fill : List Layer → Value → Value
  | [], v => v
  | layer :: layers, v => layer.wrap (fill layers v)

/-- The way through layers. -/
def location (layers : List Layer) : Path := layers.flatMap steps

end Layer

example : Path.text (.key "where" :: Layer.location [.among .conj [.null] [], .negation])
    = "$.where.and[1].not" := by decide +kernel

/-- The query with nothing but a clause. -/
def Query.only (v : Value) : Value := .map [("where", v)]

/-! ## Paths -/

namespace Issue

/-- The issue seen from further above. -/
def beneath (path : Path) (issue : Issue) : Issue := ⟨path ++ issue.path, issue.cause⟩

/-- The issue of a clause that is not right under `where` but at a place below. -/
def moved (location : Path) (issue : Issue) : Issue :=
  ⟨.key "where" :: location ++ issue.path.tail, issue.cause⟩

theorem beneath_append (path more : Path) (issue : Issue) :
    issue.beneath (path ++ more) = (issue.beneath more).beneath path := by
  rw [beneath, beneath, beneath, List.append_assoc]

theorem moved_beneath (location : Path) (issue : Issue) :
    (issue.beneath [.key "where"]).moved location = issue.beneath (.key "where" :: location) := rfl

end Issue

theorem Path.text_append (path more : Path) :
    Path.text (path ++ more) = Path.text path ++ String.join (more.map Step.text) := by
  rw [Path.text, Path.text, List.map_append, String.join_append, String.append_assoc]

/-! ## Issues that are kept apart -/

/-- Holds of a value with a hole at a place: whatever the hole is filled with, its issues are those
of the filling, under the place, between issues that stand elsewhere.  Here `outer` gives the issues
for each filling, and `inner` those of the filling alone. -/
def Isolates (outer inner : Value → List Issue) (location : Path) : Prop :=
  ∃ ahead behind : List Issue, (∀ issue ∈ ahead ++ behind, ¬location <+: issue.path) ∧
    ∀ v, outer v = ahead ++ (inner v).map (Issue.beneath location) ++ behind

theorem Isolates.refl (issues : Value → List Issue) : Isolates issues issues [] := by
  refine ⟨[], [], fun issue h => absurd h List.not_mem_nil, fun v => ?_⟩
  rw [List.nil_append, List.append_nil]
  exact (List.map_id _).symm

/-- A hole in a hole is a hole. -/
theorem Isolates.comp {outer middle inner : Value → List Issue} {path more : Path}
    {wrap : Value → Value} (houter : Isolates outer middle path)
    (hinner : Isolates (middle ∘ wrap) inner more) :
    Isolates (outer ∘ wrap) inner (path ++ more) := by
  obtain ⟨ahead, behind, haround, houter⟩ := houter
  obtain ⟨ahead', behind', haround', hinner⟩ := hinner
  refine ⟨ahead ++ ahead'.map (Issue.beneath path), behind'.map (Issue.beneath path) ++ behind,
    ?_, ?_⟩
  · have hfar : ∀ issue ∈ ahead ++ behind, ¬path ++ more <+: issue.path :=
      fun issue hissue h => haround issue hissue ((List.prefix_append path more).trans h)
    have hnear : ∀ issue ∈ ahead' ++ behind', ¬path ++ more <+: (issue.beneath path).path :=
      fun issue hissue h => haround' issue hissue ((List.prefix_append_right_inj path).1 h)
    intro issue hissue
    simp only [List.mem_append, List.mem_map, or_assoc] at hissue hfar hnear
    rcases hissue with h | ⟨issue, h, rfl⟩ | ⟨issue, h, rfl⟩ | h
    · exact hfar issue (Or.inl h)
    · exact hnear issue (Or.inl h)
    · exact hnear issue (Or.inr h)
    · exact hfar issue (Or.inr h)
  · intro v
    have hbeneath : ∀ issues : List Issue, issues.map (Issue.beneath (path ++ more))
        = (issues.map (Issue.beneath more)).map (Issue.beneath path) := by
      intro issues
      rw [List.map_map]
      exact List.map_congr_left fun issue _ => issue.beneath_append path more
    rw [Function.comp_apply, houter, ← Function.comp_apply (f := middle), hinner, hbeneath]
    simp only [List.map_append, List.append_assoc]

/-! ## Layers -/

namespace Issue

variable (issues : Value → List Issue)

theorem ofItems_append (xs ys : List Value) (start : ℕ) :
    ofItems issues start (xs ++ ys)
      = ofItems issues start xs ++ ofItems issues (start + xs.length) ys := by
  induction xs generalizing start with
  | nil => rfl
  | cons x xs ih =>
    rw [List.cons_append, ofItems, ofItems, ih, List.append_assoc, List.length_cons,
      Nat.add_assoc, Nat.add_comm 1]

theorem ofItems_eq_flatMap (xs : List Value) (start : ℕ) :
    ofItems issues start xs
      = (xs.zipIdx start).flatMap fun x => (issues x.1).map (under (.index x.2)) := by
  induction xs generalizing start with
  | nil => rfl
  | cons x xs ih => rw [ofItems, ih, List.zipIdx_cons, List.flatMap_cons]

/-- No issue of the items of a list stands at an index that is not theirs. -/
theorem not_prefix_of_mem_ofItems {xs : List Value} {start n : ℕ}
    (hn : n < start ∨ start + xs.length ≤ n) {issue : Issue} (h : issue ∈ ofItems issues start xs) :
    ¬[.index n] <+: issue.path := by
  rw [ofItems_eq_flatMap, List.mem_flatMap] at h
  obtain ⟨⟨x, i⟩, hx, hissue⟩ := h
  obtain ⟨item, -, rfl⟩ := List.mem_map.1 hissue
  obtain ⟨hle, hlt, -⟩ := List.mem_zipIdx hx
  rw [path_under, List.cons_prefix_cons]
  rintro ⟨hindex, -⟩
  obtain rfl := Step.index.inj hindex
  omega

end Issue

theorem Clause.itemIssues_eq_ofItems (xs : List Value) (start : ℕ) :
    itemIssues start xs = Issue.ofItems issues start xs := by
  induction xs generalizing start with
  | nil => rw [itemIssues, Issue.ofItems]
  | cons x xs ih => rw [itemIssues, Issue.ofItems, ih]

/-- A map with a single key, one of a shape, has the issues of this shape. -/
theorem Clause.issues_single {shape : Shape} {key : String} (hkey : key ∈ shape.keys) (v : Value) :
    issues (.map [(key, v)]) = bodyIssues [(key, v)] shape := by
  have hmem : key ∈ Members.keys [(key, v)] := List.mem_singleton_self key
  have hall : ∀ k ∈ Members.keys [(key, v)], k ∈ shape.keys :=
    fun k hk => List.mem_singleton.1 hk ▸ hkey
  obtain ⟨hshapes, hknown⟩ := shown_iff.2 ⟨⟨key, hkey, hmem⟩, hall⟩
  rw [issues, hshapes]
  cases shape <;> exact (congrArg (· ++ _) hknown).trans (List.nil_append _)

/-- A junction has the issues of its clauses. -/
theorem Junction.issues_of (junction : Junction) (clauses : List Value) :
    Clause.issues (junction.of clauses)
      = (Issue.ofItems Clause.issues 0 clauses).map (Issue.under (.key junction.key)) := by
  have hlist : Clause.listIssues (.list clauses) = Issue.ofItems Clause.issues 0 clauses := by
    rw [Clause.listIssues, Clause.itemIssues_eq_ofItems]
  rw [← hlist, of]
  cases junction with
  | conj =>
    have hkey : "and" ∈ Shape.conj.keys := List.mem_singleton_self _
    rw [key, Clause.issues_single hkey, Clause.bodyIssues, Clause.issuesUnderList, if_pos rfl]
  | disj =>
    have hkey : "or" ∈ Shape.disj.keys := List.mem_singleton_self _
    rw [key, Clause.issues_single hkey, Clause.bodyIssues, Clause.issuesUnderList, if_pos rfl]

theorem Clause.issues_negation (v : Value) :
    issues (.map [("not", v)]) = (issues v).map (Issue.under (.key "not")) := by
  have hkey : "not" ∈ Shape.neg.keys := List.mem_singleton_self _
  rw [issues_single hkey, bodyIssues, issuesUnder, if_pos rfl]

namespace Layer

theorem isolates (layer : Layer) :
    Isolates (Clause.issues ∘ layer.wrap) Clause.issues layer.steps := by
  cases layer with
  | among junction before after =>
    refine ⟨(Issue.ofItems Clause.issues 0 before).map (Issue.under (.key junction.key)),
      (Issue.ofItems Clause.issues (before.length + 1) after).map
        (Issue.under (.key junction.key)), ?_, fun v => ?_⟩
    · -- The clauses beside the hole have other indices than the hole.
      intro issue hissue
      rw [← List.map_append] at hissue
      obtain ⟨item, hitem, rfl⟩ := List.mem_map.1 hissue
      rw [steps, Issue.path_under, List.cons_prefix_cons, not_and]
      intro _
      rcases List.mem_append.1 hitem with h | h
      · exact Issue.not_prefix_of_mem_ofItems _ (Or.inr (Nat.zero_add _).le) h
      · exact Issue.not_prefix_of_mem_ofItems _ (Or.inl before.length.lt_succ_self) h
    · rw [Function.comp_apply, wrap, Junction.issues_of, Issue.ofItems_append, Issue.ofItems,
        List.map_append, List.map_append, List.map_map, Nat.zero_add, ← List.append_assoc]
      rfl
  | negation =>
    refine ⟨[], [], fun issue h => absurd h List.not_mem_nil, fun v => ?_⟩
    rw [Function.comp_apply, wrap, Clause.issues_negation, List.nil_append, List.append_nil]
    rfl

/-- **The issues of a clause with a hole are those of the filling, between issues that stand
elsewhere.** -/
theorem isolates_fill (layers : List Layer) :
    Isolates (Clause.issues ∘ fill layers) Clause.issues (location layers) := by
  induction layers with
  | nil => exact Isolates.refl Clause.issues
  | cons layer layers ih => exact layer.isolates.comp ih

theorem resolve?_wrap (layer : Layer) (v : Value) :
    (layer.wrap v).resolve? layer.steps = some v := by
  cases layer with
  | among junction before after =>
    simp [wrap, steps, Junction.of, Value.resolve?, Members.get?_cons]
  | negation => rfl

theorem resolve?_fill (layers : List Layer) (v : Value) :
    (fill layers v).resolve? (location layers) = some v := by
  induction layers with
  | nil => rfl
  | cons layer layers ih =>
    rw [fill, location, List.flatMap_cons, Value.resolve?_append, resolve?_wrap]
    exact ih

end Layer

/-! ## Queries -/

namespace Query

/-- A query has the issues of its members. -/
theorem issues_map (ms : Members) :
    issues (.map ms) = ms.flatMap fun m => issues (.map [m]) := by
  rw [issues]
  refine List.flatMap_congr fun m _ => ?_
  rw [issues, List.flatMap_singleton]

theorem issues_append (ms ns : Members) :
    issues (.map (ms ++ ns)) = issues (.map ms) ++ issues (.map ns) := by
  rw [issues, issues, issues, List.flatMap_append]

theorem issues_only (v : Value) :
    issues (only v) = (Clause.issues v).map (Issue.beneath [.key "where"]) := by
  rw [only, issues, List.flatMap_singleton]
  rfl

/-- No issue of a query stands under a key that the query does not have. -/
theorem not_prefix_of_mem_issues {ms : Members} {key : String} (hkey : key ∉ Members.keys ms)
    {issue : Issue} (h : issue ∈ issues (.map ms)) : ¬[.key key] <+: issue.path := by
  rw [issues, List.mem_flatMap] at h
  obtain ⟨⟨k, v⟩, hmem, hissue⟩ := h
  obtain ⟨item, -, rfl⟩ := List.mem_map.1 hissue
  rw [Issue.path_under, List.cons_prefix_cons]
  rintro ⟨hsame, -⟩
  obtain rfl := Step.key.inj hsame
  exact hkey (Members.mem_keys_of_mem hmem)

theorem isolates_member {before after : Members} (hbefore : "where" ∉ Members.keys before)
    (hafter : "where" ∉ Members.keys after) :
    Isolates (fun v => issues (.map (before ++ ("where", v) :: after))) Clause.issues
      [.key "where"] := by
  refine ⟨issues (.map before), issues (.map after), ?_, fun v => ?_⟩
  · intro issue hissue
    rcases List.mem_append.1 hissue with h | h
    · exact not_prefix_of_mem_issues hbefore h
    · exact not_prefix_of_mem_issues hafter h
  · dsimp only
    rw [issues_append, ← List.singleton_append, issues_append, ← List.append_assoc]
    exact congrArg (fun found => issues (.map before) ++ found ++ issues (.map after))
      (issues_only v)

/-- What is found in a clause elsewhere is what is found in it under `where`. -/
theorem map_moved_issues_only (location : Path) (v : Value) :
    (issues (only v)).map (Issue.moved location)
      = (Clause.issues v).map (Issue.beneath (.key "where" :: location)) := by
  rw [issues_only, List.map_map]
  exact List.map_congr_left fun issue _ => issue.moved_beneath location

/-- A query is read down to the hole of its clause. -/
theorem resolve?_member {before : Members} (hbefore : "where" ∉ Members.keys before)
    (after : Members) (layers : List Layer) (v : Value) :
    Value.resolve? (.key "where" :: Layer.location layers)
      (.map (before ++ ("where", Layer.fill layers v) :: after)) = some v := by
  have hnone : Members.get? "where" before = none := by
    rw [Option.eq_none_iff_forall_ne_some]
    exact fun w hw => hbefore (Members.mem_keys_iff.2 ⟨w, hw⟩)
  rw [Value.resolve?, Members.get?_append, hnone, Option.none_or, Members.get?_cons, if_pos rfl]
  exact Layer.resolve?_fill layers v

/-- The path of an issue under `where` goes on, elsewhere, as it does there. -/
theorem exists_text_of_mem_issues_only {v : Value} {issue : Issue} (h : issue ∈ issues (only v))
    (location : Path) :
    ∃ rest : String, issue.path.text = "$.where" ++ rest ∧
      (issue.moved location).path.text = Path.text (.key "where" :: location) ++ rest := by
  rw [issues_only] at h
  obtain ⟨item, -, rfl⟩ := List.mem_map.1 h
  refine ⟨String.join (item.path.map Step.text), ?_, ?_⟩
  · rw [Issue.beneath, Path.text_append]
    rfl
  · rw [Issue.moved_beneath, Issue.beneath, Path.text_append]

/-- What is found in a junction is what is found in its clauses. -/
theorem map_moved_issues_junction (junction : Junction) (clauses : List Value) (location : Path) :
    (issues (only (junction.of clauses))).map (Issue.moved location)
      = clauses.zipIdx.flatMap fun clause => (issues (only clause.1)).map
          (Issue.moved (location ++ [.key junction.key, .index clause.2])) := by
  simp only [map_moved_issues_only]
  rw [Junction.issues_of, Issue.ofItems_eq_flatMap, List.map_flatMap, List.map_flatMap]
  refine List.flatMap_congr fun clause _ => ?_
  rw [List.map_map, List.map_map]
  exact List.map_congr_left fun issue _ =>
    (issue.beneath_append (.key "where" :: location) [.key junction.key, .index clause.2]).symm

/-- **The parts of a query are checked apart.**  A query has the issues of its members, in turn.  A
clause anywhere in its `where`, below negations and junctions, has the issues that it has as the
whole of `where`, only that their paths lead to its place; what else there is stands elsewhere, and
does not depend on the clause.  A junction has the issues of its clauses, in turn. -/
theorem issues_stand_apart :
    (∀ ms : Members, issues (.map ms) = ms.flatMap fun m => issues (.map [m])) ∧
    (∀ (before after : Members) (layers : List Layer),
      "where" ∉ Members.keys before → "where" ∉ Members.keys after →
      ∃ ahead behind : List Issue,
        (∀ issue ∈ ahead ++ behind, ¬(.key "where" :: Layer.location layers) <+: issue.path) ∧
        ∀ v : Value,
          Value.resolve? (.key "where" :: Layer.location layers)
            (.map (before ++ ("where", Layer.fill layers v) :: after)) = some v ∧
          issues (.map (before ++ ("where", Layer.fill layers v) :: after))
            = ahead ++ (issues (only v)).map (Issue.moved (Layer.location layers)) ++ behind) ∧
    (∀ (v : Value) (location : Path), ∀ issue ∈ issues (only v), ∃ rest : String,
      issue.path.text = "$.where" ++ rest ∧
      (issue.moved location).path.text = Path.text (.key "where" :: location) ++ rest ∧
      (issue.moved location).message = issue.message) ∧
    ∀ (junction : Junction) (clauses : List Value) (location : Path),
      (issues (only (junction.of clauses))).map (Issue.moved location)
        = clauses.zipIdx.flatMap fun clause => (issues (only clause.1)).map
            (Issue.moved (location ++ [.key junction.key, .index clause.2])) := by
  refine ⟨issues_map, ?_, ?_, ?_⟩
  · intro before after layers hbefore hafter
    obtain ⟨ahead, behind, haround, hissues⟩ :=
      (isolates_member hbefore hafter).comp (Layer.isolates_fill layers)
    refine ⟨ahead, behind, haround, fun v => ⟨resolve?_member hbefore after layers v, ?_⟩⟩
    rw [map_moved_issues_only]
    exact hissues v
  · intro v location issue hissue
    obtain ⟨rest, htext, hmoved⟩ := exists_text_of_mem_issues_only hissue location
    exact ⟨rest, htext, hmoved, rfl⟩
  · intro junction clauses location
    exact map_moved_issues_junction junction clauses location

end Query

end Logbook
