import Mathlib.Data.List.Forall2
import Logbook.Proofs.Query.Grammar
import Logbook.Proofs.Query.Wire

/-!
# Reading a query that was checked

The checker and the reader go through a query apart from one another.  What the checker lets through
the reader can read, and it reads all of it: written again the query is the same value, but for the
order of members and for order keys that were bare names.  So no member that passes the check is one
that the reader passes over.

Of the clauses in a clause of the grammar each has the keys of one shape, so that it makes no
difference in which order a reader tries the shapes.

* `Members.pick`, `Members.perm_pick`: the members of a map, listed by name.
* `Clause.IsNode`, `IsClause.of_isNode`: the clauses in a clause.
* `Clause.Reordered`, `Query.Respelled`: what writing a query again may change.
* `Query.parse_of_checked`: what becomes of a query that was checked.
-/

namespace Logbook

/-! ## Members by name -/

namespace Members

/-- The members under some names, in the order of the names. -/
def pick (names : List String) (ms : Members) : Members :=
  names.flatMap fun name => (get? name ms).toList.map fun v => (name, v)

theorem filter_key {ms : Members} (h : (keys ms).Nodup) (key : String) :
    ms.filter (fun m => m.1 = key) = (get? key ms).toList.map fun v => (key, v) := by
  induction ms with
  | nil => rfl
  | cons m ms ih =>
    obtain ⟨k, v⟩ := m
    rw [keys, List.map_cons, List.nodup_cons] at h
    rw [get?_cons]
    by_cases hk : k = key
    · have hnone : get? key ms = none := by
        rw [Option.eq_none_iff_forall_ne_some]
        exact fun w hw => h.1 (hk ▸ mem_keys_iff.2 ⟨w, hw⟩)
      rw [List.filter_cons_of_pos (by simpa using hk), ih h.2, if_pos hk, hnone, hk]
      rfl
    · rw [List.filter_cons_of_neg (by simpa using hk), ih h.2, if_neg hk]

theorem get?_filter_ne {key name : String} (h : name ≠ key) (ms : Members) :
    get? name (ms.filter fun m => !decide (m.1 = key)) = get? name ms := by
  induction ms with
  | nil => rfl
  | cons m ms ih =>
    obtain ⟨k, v⟩ := m
    by_cases hk : k = key
    · rw [List.filter_cons_of_neg (by simpa using hk), ih, get?_cons,
        if_neg fun hname => h (hname.symm.trans hk)]
    · rw [List.filter_cons_of_pos (by simpa using hk), get?_cons, get?_cons, ih]

/-- A map without keys beyond these names is listed by them. -/
theorem perm_pick {names : List String} {ms : Members} (hkeys : (keys ms).Nodup)
    (hnames : names.Nodup) (h : ∀ key ∈ keys ms, key ∈ names) : ms.Perm (pick names ms) := by
  induction names generalizing ms with
  | nil =>
    cases ms with
    | nil => exact List.Perm.nil
    | cons m ms => exact absurd (h m.1 List.mem_cons_self) List.not_mem_nil
  | cons name names ih =>
    rw [List.nodup_cons] at hnames
    have hothers : ∀ key ∈ keys (ms.filter fun m => !decide (m.1 = name)), key ∈ names := by
      intro key hkey
      obtain ⟨m, hm, rfl⟩ := List.mem_map.1 hkey
      obtain ⟨hmem, hne⟩ := List.mem_filter.1 hm
      have hcases := List.mem_cons.1 (h m.1 (List.mem_map_of_mem hmem))
      exact hcases.resolve_left (by simpa using hne)
    have hrest := ih (hkeys.sublist (List.filter_sublist.map _)) hnames.2 hothers
    have hpick : pick names (ms.filter fun m => !decide (m.1 = name)) = pick names ms :=
      List.flatMap_congr fun other hother => by
        have hne : other ≠ name := ne_of_mem_of_not_mem hother hnames.1
        rw [get?_filter_ne hne]
    rw [hpick] at hrest
    rw [pick, List.flatMap_cons, ← filter_key hkeys, ← pick]
    exact (List.filter_append_perm (fun m => decide (m.1 = name)) ms).symm.trans
      (hrest.append_left _)

end Members

/-! ## Clauses in a clause -/

namespace Clause

/-- The clauses in a clause, itself among them. -/
inductive IsNode (root : Value) : Value → Prop where
  | root : IsNode root root
  | conj {ms : Members} {xs : List Value} {v : Value} (h : IsNode root (.map ms))
      (hvalue : Members.get? "and" ms = some (.list xs)) (hv : v ∈ xs) : IsNode root v
  | disj {ms : Members} {xs : List Value} {v : Value} (h : IsNode root (.map ms))
      (hvalue : Members.get? "or" ms = some (.list xs)) (hv : v ∈ xs) : IsNode root v
  | neg {ms : Members} {v : Value} (h : IsNode root (.map ms))
      (hvalue : Members.get? "not" ms = some v) : IsNode root v

/-- What the grammar asks of a map that has a key of a shape. -/
theorem isBody_of_get? {ms : Members} (h : IsClause (.map ms)) {s : Shape} {key : String}
    (hkey : key ∈ s.keys) {v : Value} (hv : Members.get? key ms = some v) : IsBody ms s := by
  obtain ⟨t, hkeys, hbody⟩ := isClause_map_iff.1 h
  have hst : t = s := eq_of_mem_keys ((hkeys key).1 (Members.mem_keys_iff.2 ⟨v, hv⟩)) hkey
  exact hst ▸ hbody

/-- The clauses in a clause of the grammar are clauses of the grammar. -/
theorem isClause_of_isNode {root node : Value} (hroot : IsClause root) (h : IsNode root node) :
    IsClause node := by
  induction h with
  | root => exact hroot
  | conj _ hvalue hv ih =>
    obtain ⟨clauses, hclauses, hall⟩ := isBody_of_get? ih (s := .conj) (by decide) hvalue
    rw [hvalue] at hclauses
    exact hall _ (Value.list.inj (Option.some.inj hclauses) ▸ hv)
  | disj _ hvalue hv ih =>
    obtain ⟨clauses, hclauses, hall⟩ := isBody_of_get? ih (s := .disj) (by decide) hvalue
    rw [hvalue] at hclauses
    exact hall _ (Value.list.inj (Option.some.inj hclauses) ▸ hv)
  | neg _ hvalue ih =>
    obtain ⟨clause, hclause, hbody⟩ := isBody_of_get? ih (s := .neg) (by decide) hvalue
    rw [hvalue] at hclause
    exact Option.some.inj hclause ▸ hbody

theorem wellFormed_of_isNode {root node : Value} (hroot : root.WellFormed)
    (h : IsNode root node) : node.WellFormed := by
  have hitem : ∀ {ms : Members} {key xs v}, (Value.map ms).WellFormed →
      Members.get? key ms = some (.list xs) → v ∈ xs → v.WellFormed := by
    intro ms key xs v hms hvalue hv
    have hlist := hms.get? hvalue
    rw [Value.WellFormed, Value.wellFormedItems_iff] at hlist
    exact hlist v hv
  induction h with
  | root => exact hroot
  | conj _ hvalue hv ih => exact hitem ih hvalue hv
  | disj _ hvalue hv ih => exact hitem ih hvalue hv
  | neg _ hvalue ih => exact ih.get? hvalue

/-- **Exactly one shape fits a clause that can be read.** -/
theorem existsUnique_shape {v : Value} (hv : IsClause v) {c : Clause} (hc : ofValue? v = some c) :
    ∃! s, (ofShape? ofValue? s v).isSome := by
  cases v with
  | map ms =>
    obtain ⟨s, hkeys, -⟩ := isClause_map_iff.1 hv
    refine ⟨s, ?_, fun t ht => ?_⟩
    · dsimp only
      rw [← ofValue?_map_eq hkeys, hc]
      rfl
    · by_contra hne
      dsimp only at ht
      rw [ofShape?_eq_none ofValue? hkeys hne] at ht
      exact absurd ht (by simp)
  | _ => cases hv

end Clause

/-! ## Written again -/

/-- A clause as it is written: the members of a condition may come in another order. -/
inductive Clause.Reordered : Value → Value → Prop where
  | condition {ms ns : Members} (h : ms.Perm ns) : Reordered (.map ms) (.map ns)
  | conj {xs ys : List Value} (h : List.Forall₂ Reordered xs ys) :
      Reordered (.map [("and", .list xs)]) (.map [("and", .list ys)])
  | disj {xs ys : List Value} (h : List.Forall₂ Reordered xs ys) :
      Reordered (.map [("or", .list xs)]) (.map [("or", .list ys)])
  | neg {v w : Value} (h : Reordered v w) : Reordered (.map [("not", v)]) (.map [("not", w)])

/-- An order key as it is written: a bare name sorts ascending. -/
def OrderKey.spellOut : Value → Value
  | .str name => .list [.str name, .str "asc"]
  | v => v

/-- A member of a query as it is written. -/
inductive Query.RespelledMember : String × Value → String × Value → Prop where
  | filter {v w : Value} (h : Clause.Reordered v w) : RespelledMember ("where", v) ("where", w)
  | orderBy (keys : List Value) :
      RespelledMember ("order-by", .list keys) ("order-by", .list (keys.map OrderKey.spellOut))
  | other {key : String} (v : Value) (hfilter : key ≠ "where") (horder : key ≠ "order-by") :
      RespelledMember (key, v) (key, v)

/-- A query as it is written: its members may come in another order. -/
def Query.Respelled (v w : Value) : Prop :=
  ∃ ms mid ns, v = .map ms ∧ w = .map ns ∧ ms.Perm mid ∧ List.Forall₂ RespelledMember mid ns

/-! ## Lists -/

/-- A list is read when each of its items is. -/
theorem exists_mapM {α : Type} {read : Value → Option α} {R : Value → α → Prop} {Q : α → Prop}
    {xs : List Value} (h : ∀ x ∈ xs, ∃ a, read x = some a ∧ R x a ∧ Q a) :
    ∃ as, xs.mapM read = some as ∧ List.Forall₂ R xs as ∧ ∀ a ∈ as, Q a := by
  induction xs with
  | nil => exact ⟨[], rfl, .nil, fun a ha => absurd ha List.not_mem_nil⟩
  | cons x xs ih =>
    rw [List.forall_mem_cons] at h
    obtain ⟨a, ha, hR, hQ⟩ := h.1
    obtain ⟨as, has, hRs, hQs⟩ := ih h.2
    refine ⟨a :: as, ?_, .cons hR hRs, List.forall_mem_cons.2 ⟨hQ, hQs⟩⟩
    rw [List.mapM_cons, ha, has]
    rfl

theorem IsFieldName.exists_str {v : Value} (h : IsFieldName v) : ∃ name, v = .str name := by
  obtain ⟨name, -, -, hv, -⟩ := h
  exact ⟨name, hv⟩

/-- A list of names is read, and written as it was. -/
theorem Query.exists_names {xs : List Value} (h : ∀ x ∈ xs, IsFieldName x) :
    ∃ names, names? (.list xs) = some names ∧ namesToValue names = .list xs := by
  have hitem : ∀ x ∈ xs, ∃ name, Value.string? x = some name ∧ x = .str name ∧ True := by
    intro x hx
    obtain ⟨name, rfl⟩ := (h x hx).exists_str
    exact ⟨name, rfl, rfl, trivial⟩
  obtain ⟨names, hread, hwrite, -⟩ := exists_mapM hitem
  refine ⟨names, hread, ?_⟩
  have hmap : List.Forall₂ (fun x y => x = y) xs (names.map Value.str) :=
    List.forall₂_map_right_iff.2 hwrite
  rw [List.forall₂_eq_eq_eq] at hmap
  rw [namesToValue, hmap]

/-- An order key is read, and written with its direction. -/
theorem OrderKey.exists_ofValue? {v : Value} (h : IsOrderKey v) :
    ∃ key, ofValue? v = some key ∧ spellOut v = key.toValue ∧ IsOrderKey key.toValue := by
  rcases h with h | ⟨field, direction, rfl, h, hdirection⟩
  · obtain ⟨name, rfl⟩ := h.exists_str
    exact ⟨⟨name, .asc⟩, rfl, rfl, Or.inr ⟨_, _, rfl, h, Or.inl rfl⟩⟩
  · obtain ⟨name, rfl⟩ := h.exists_str
    rcases hdirection with rfl | rfl
    · exact ⟨⟨name, .asc⟩, rfl, rfl, Or.inr ⟨_, _, rfl, h, Or.inl rfl⟩⟩
    · exact ⟨⟨name, .desc⟩, rfl, rfl, Or.inr ⟨_, _, rfl, h, Or.inr rfl⟩⟩

theorem Query.exists_orderKeys {xs : List Value} (h : ∀ x ∈ xs, IsOrderKey x) :
    ∃ keys, orderKeys? (.list xs) = some keys ∧
      keys.map OrderKey.toValue = xs.map OrderKey.spellOut ∧
        ∀ key ∈ keys.map OrderKey.toValue, IsOrderKey key := by
  obtain ⟨keys, hread, hwrite, hkeys⟩ :=
    exists_mapM fun x hx => OrderKey.exists_ofValue? (h x hx)
  have hmap : List.Forall₂ (fun x y => x = y) (xs.map OrderKey.spellOut)
      (keys.map OrderKey.toValue) :=
    List.forall₂_map_left_iff.2 (List.forall₂_map_right_iff.2 hwrite)
  rw [List.forall₂_eq_eq_eq] at hmap
  exact ⟨keys, hread, hmap.symm, List.forall_mem_map.2 hkeys⟩

/-! ## Clauses -/

namespace Clause

/-- A map with one key only, written once, has one member only. -/
theorem eq_singleton {ms : Members} {key : String} {v : Value} (hnodup : (Members.keys ms).Nodup)
    (hkeys : HasExactly [key] ms) (hv : Members.get? key ms = some v) : ms = [(key, v)] := by
  have hperm := Members.perm_pick hnodup (List.pairwise_singleton _ key) fun k hk => (hkeys k).1 hk
  have hpick : Members.pick [key] ms = [(key, v)] := by
    rw [Members.pick, List.flatMap_cons, List.flatMap_nil, List.append_nil, hv]
    rfl
  rw [hpick] at hperm
  exact List.perm_singleton.1 hperm

/-- The members of a condition of the grammar, read and written again. -/
theorem exists_condition {ms : Members} (hnodup : (Members.keys ms).Nodup)
    (hkeys : HasExactly Condition.keys ms) (hbody : IsBody ms .condition) :
    ∃ c : Condition, Condition.ofMembers? ms = some c ∧ ms.Perm c.toMembers ∧
      IsClause (.map c.toMembers) := by
  obtain ⟨field, operator, operand, hfield, hname, hoperator, hknown, hvalue, hoperand⟩ := hbody
  obtain ⟨name, rfl⟩ := hname.exists_str
  obtain ⟨op, rfl⟩ := Condition.mem_operatorNames_iff.1 hknown
  refine ⟨⟨name, op, operand⟩, ?_, ?_, ?_⟩
  · rw [Condition.ofMembers?, hfield, hoperator, hvalue]
    dsimp only
    rw [Condition.ofParts?, Value.word?, Option.bind_some, Operator.ofName?_name, Option.map_some]
  · have hpick : Members.pick Condition.keys ms = Condition.toMembers ⟨name, op, operand⟩ := by
      simp only [Members.pick, Condition.keys, List.flatMap_cons, List.flatMap_nil, hfield,
        hoperator, hvalue]
      rfl
    exact hpick ▸ Members.perm_pick hnodup (by decide) fun k hk => (hkeys k).1 hk
  · exact .condition (fun _ => Iff.rfl) rfl hname rfl hknown rfl hoperand

/-- **A clause of the grammar is read, and written it is the same clause.** -/
theorem exists_ofValue? {v : Value} (hv : IsClause v) (hwf : v.WellFormed) :
    ∃ c, ofValue? v = some c ∧ Reordered v c.toValue ∧ IsClause c.toValue := by
  induction hv with
  | @condition ms field operand operator hkeys hfield hname hoperator hknown hvalue hoperand =>
    rw [Value.WellFormed] at hwf
    obtain ⟨c, hread, hperm, hclause⟩ := exists_condition hwf.1 hkeys
      ⟨_, _, _, hfield, hname, hoperator, hknown, hvalue, hoperand⟩
    refine ⟨condition c, ?_, .condition hperm, hclause⟩
    have hcondition : HasExactly Shape.condition.keys ms := hkeys
    rw [ofValue?_map_eq hcondition, ofShape?, hread, Option.map_some]
  | @conj ms clauses hkeys hvalue _ ih =>
    have hitems := hwf.get? hvalue
    rw [Value.WellFormed, Value.wellFormedItems_iff] at hitems
    rw [Value.WellFormed] at hwf
    obtain ⟨cs, hread, hsame, hall⟩ := exists_mapM fun x hx => ih x hx (hitems x hx)
    have hconj : HasExactly Shape.conj.keys ms := hkeys
    refine ⟨conj cs, ?_, ?_, ?_⟩
    · rw [ofValue?_map_eq hconj, ofShape?, hvalue, Option.bind_some, ofListBy?, hread,
        Option.map_some]
    · rw [eq_singleton hwf.1 hkeys hvalue, toValue, toValues_eq_map]
      exact .conj (List.forall₂_map_right_iff.2 hsame)
    · rw [toValue, toValues_eq_map]
      exact .conj (hasExactly_singleton _ _) rfl (List.forall_mem_map.2 hall)
  | @disj ms clauses hkeys hvalue _ ih =>
    have hitems := hwf.get? hvalue
    rw [Value.WellFormed, Value.wellFormedItems_iff] at hitems
    rw [Value.WellFormed] at hwf
    obtain ⟨cs, hread, hsame, hall⟩ := exists_mapM fun x hx => ih x hx (hitems x hx)
    have hdisj : HasExactly Shape.disj.keys ms := hkeys
    refine ⟨disj cs, ?_, ?_, ?_⟩
    · rw [ofValue?_map_eq hdisj, ofShape?, hvalue, Option.bind_some, ofListBy?, hread,
        Option.map_some]
    · rw [eq_singleton hwf.1 hkeys hvalue, toValue, toValues_eq_map]
      exact .disj (List.forall₂_map_right_iff.2 hsame)
    · rw [toValue, toValues_eq_map]
      exact .disj (hasExactly_singleton _ _) rfl (List.forall_mem_map.2 hall)
  | @neg ms clause hkeys hvalue _ ih =>
    obtain ⟨c, hread, hsame, hclause⟩ := ih (hwf.get? hvalue)
    rw [Value.WellFormed] at hwf
    have hneg : HasExactly Shape.neg.keys ms := hkeys
    refine ⟨neg c, ?_, ?_, ?_⟩
    · rw [ofValue?_map_eq hneg, ofShape?, hvalue, Option.bind_some, hread, Option.map_some]
    · rw [eq_singleton hwf.1 hkeys hvalue, toValue]
      exact .neg hsame
    · rw [toValue]
      exact .neg (hasExactly_singleton _ _) rfl hclause

end Clause

/-! ## Queries -/

theorem IsMember.ne_null {key : String} {v : Value} (h : IsMember key v) : v ≠ .null := by
  rintro rfl
  have hknown := h.known
  simp only [List.mem_cons, List.not_mem_nil, or_false] at hknown
  rcases hknown with hkey | hkey | hkey | hkey | hkey | hkey
  · exact (h.find hkey).elim fun _ hv => Value.noConfusion hv.1
  · cases h.filter hkey
  · exact (h.groupBy hkey).elim fun _ hv => Value.noConfusion hv.1
  · exact (h.orderBy hkey).elim fun _ hv => Value.noConfusion hv.1
  · exact (h.limit hkey).elim fun _ hv => Value.noConfusion hv.2
  · exact (h.offset hkey).elim fun _ hv => Value.noConfusion hv.2

theorem isMember_filter_iff {v : Value} : IsMember "where" v ↔ IsClause v := by
  simp [isMember_iff]

theorem isMember_orderBy_iff {v : Value} : IsMember "order-by" v ↔ IsOrderList v := by
  simp [isMember_iff]

namespace Query

/-- A part that was found is read, and written under its name. -/
theorem exists_part {α : Type} {name : String} {read : Value → Option α} {write : α → Value}
    {found : Option Value} (hnull : found ≠ some .null)
    (h : ∀ v, found = some v → ∃ a, read v = some a ∧
      RespelledMember (name, v) (name, write a) ∧ IsMember name (write a)) :
    ∃ o, part? read found = some o ∧ (∀ a, o = some a → ∃ v, read v = some a) ∧
      List.Forall₂ RespelledMember (found.toList.map fun v => (name, v)) (part name write o) ∧
        ∀ m ∈ part name write o, IsMember m.1 m.2 := by
  cases found with
  | none => exact ⟨none, rfl, nofun, .nil, fun m hm => absurd hm List.not_mem_nil⟩
  | some v =>
    obtain ⟨a, hread, hsame, hwritten⟩ := h v rfl
    refine ⟨some a, ?_, ?_, .cons hsame .nil, List.forall_mem_singleton.2 hwritten⟩
    · rw [part?_some fun hv => hnull (congrArg some hv), hread, Option.map_some]
    · intro b hb
      exact ⟨v, Option.some.inj hb ▸ hread⟩

/-- A list of names is written as it was. -/
theorem exists_find {v : Value} (h : IsMember "find" v) : ∃ names, names? v = some names ∧
    RespelledMember ("find", v) ("find", namesToValue names) ∧
      IsMember "find" (namesToValue names) := by
  obtain ⟨xs, rfl, -, hxs⟩ := h.find rfl
  obtain ⟨names, hread, hwrite⟩ := exists_names hxs
  exact ⟨names, hread, hwrite ▸ .other _ (by decide) (by decide), hwrite ▸ h⟩

theorem exists_groupBy {v : Value} (h : IsMember "group-by" v) : ∃ names, names? v = some names ∧
    RespelledMember ("group-by", v) ("group-by", namesToValue names) ∧
      IsMember "group-by" (namesToValue names) := by
  obtain ⟨xs, rfl, -, hxs⟩ := h.groupBy rfl
  obtain ⟨names, hread, hwrite⟩ := exists_names fun x hx => (hxs x hx).1
  exact ⟨names, hread, hwrite ▸ .other _ (by decide) (by decide), hwrite ▸ h⟩

theorem exists_orderBy {v : Value} (h : IsMember "order-by" v) :
    ∃ keys, orderKeys? v = some keys ∧
      RespelledMember ("order-by", v) ("order-by", .list (keys.map OrderKey.toValue)) ∧
        IsMember "order-by" (.list (keys.map OrderKey.toValue)) := by
  obtain ⟨xs, rfl, hxs⟩ := h.orderBy rfl
  obtain ⟨keys, hread, hwrite, hkeys⟩ := exists_orderKeys hxs
  exact ⟨keys, hread, hwrite ▸ .orderBy xs, isMember_orderBy_iff.2 ⟨_, rfl, hkeys⟩⟩

/-- A limit or an offset is written as it was. -/
theorem exists_natural {name : String} {v : Value} (hname : name ≠ "where" ∧ name ≠ "order-by")
    (hv : IsNatural v) (h : IsMember name v) : ∃ n, v.natural? = some n ∧
      RespelledMember (name, v) (name, .ofNat n) ∧ IsMember name (.ofNat n) := by
  obtain ⟨n, hn, rfl⟩ := hv
  exact ⟨n, Value.natural?_eq_some_iff.2 ⟨hn, rfl⟩, .other _ hname.1 hname.2, h⟩

theorem exists_filter {v : Value} (hwf : v.WellFormed) (h : IsMember "where" v) :
    ∃ c, Clause.ofValue? v = some c ∧ RespelledMember ("where", v) ("where", c.toValue) ∧
      IsMember "where" c.toValue := by
  obtain ⟨c, hread, hsame, hclause⟩ := Clause.exists_ofValue? (h.filter rfl) hwf
  exact ⟨c, hread, .filter hsame, isMember_filter_iff.2 hclause⟩

/-- **A query of the grammar is read, and written it is the same query.** -/
theorem exists_ofValue? {raw : Value} (h : IsQuery raw) (hwf : raw.WellFormed) :
    ∃ q, ofValue? raw = some q ∧ Respelled raw q.toValue ∧ IsQuery q.toValue ∧
      ofValue? q.toValue = some q := by
  obtain ⟨ms, rfl, hms⟩ := h
  have hmember : ∀ {name v}, Members.get? name ms = some v → IsMember name v :=
    fun hv => hms _ (Members.mem_of_get? hv)
  have hnull : ∀ {name}, Members.get? name ms ≠ some .null :=
    fun hv => (hmember hv).ne_null rfl
  obtain ⟨find, hfind, -, hfindSame, hfindMember⟩ :=
    exists_part hnull fun v hv => exists_find (hmember hv)
  obtain ⟨filter, hfilter, -, hfilterSame, hfilterMember⟩ :=
    exists_part hnull fun v hv => exists_filter (hwf.get? hv) (hmember hv)
  obtain ⟨groupBy, hgroupBy, -, hgroupBySame, hgroupByMember⟩ :=
    exists_part hnull fun v hv => exists_groupBy (hmember hv)
  obtain ⟨orderBy, horderBy, -, horderBySame, horderByMember⟩ :=
    exists_part hnull fun v hv => exists_orderBy (hmember hv)
  obtain ⟨limit, hlimit, hlimitRead, hlimitSame, hlimitMember⟩ :=
    exists_part hnull fun v hv =>
      exists_natural (by decide) ((hmember hv).limit rfl) (hmember hv)
  obtain ⟨offset, hoffset, hoffsetRead, hoffsetSame, hoffsetMember⟩ :=
    exists_part hnull fun v hv =>
      exists_natural (by decide) ((hmember hv).offset rfl) (hmember hv)
  have hword : ∀ {o : Option ℕ}, (∀ n, o = some n → ∃ v : Value, v.natural? = some n) →
      ∀ n, o = some n → n < Nat.pow 2 64 := by
    intro o ho n hn
    obtain ⟨v, hv⟩ := ho n hn
    exact (Value.natural?_eq_some_iff.1 hv).1
  refine ⟨⟨find, filter, groupBy, orderBy, limit, offset⟩, ?_, ?_, ?_,
    ofValue?_toValue (hword hlimitRead) (hword hoffsetRead)⟩
  · rw [ofValue?, ofParts?, hfind, hfilter, hgroupBy, horderBy, hlimit, hoffset]
    rfl
  · rw [Value.WellFormed] at hwf
    refine ⟨ms, Members.pick partNames ms, _, rfl, rfl,
      Members.perm_pick hwf.1 (by decide) fun key hkey => ?_, ?_⟩
    · obtain ⟨v, hv⟩ := Members.mem_keys_iff.1 hkey
      exact (hmember hv).known
    · rw [Members.pick, partNames]
      simp only [List.flatMap_cons, List.flatMap_nil, List.append_nil, List.append_assoc]
      exact List.rel_append hfindSame (List.rel_append hfilterSame (List.rel_append hgroupBySame
        (List.rel_append horderBySame (List.rel_append hlimitSame hoffsetSame))))
  · refine ⟨_, rfl, ?_⟩
    simp only [List.forall_mem_append]
    exact ⟨⟨⟨⟨⟨hfindMember, hfilterMember⟩, hgroupByMember⟩, horderByMember⟩, hlimitMember⟩,
      hoffsetMember⟩

theorem parse_of_isQuery {raw : Value} (h : IsQuery raw) {q : Query}
    (hq : ofValue? raw = some q) : parse raw = .ok q := by
  rw [parse, (issues_eq_nil_iff_isQuery raw).2 h, hq]

/-- **What passes the check is read, and nothing of it is lost.**  Written again, the query is the
value that was checked, but for the order of members and for bare order keys, and it passes the check
and is read as before.  At each clause in it exactly one shape fits, so that it makes no difference
in which order a reader tries them. -/
theorem parse_of_checked {raw : Value} (hwf : raw.WellFormed) (hchecked : issues raw = []) :
    ∃ q, parse raw = .ok q ∧ Respelled raw q.toValue ∧
      issues q.toValue = [] ∧ parse q.toValue = .ok q ∧
      ∀ ms filter node, raw = .map ms → Members.get? "where" ms = some filter →
        Clause.IsNode filter node →
          (∃! s, (Clause.ofShape? Clause.ofValue? s node).isSome) ∧
          ∀ order read, (∀ s, s ∈ order) → Clause.IsReader order read →
            read node = Clause.ofValue? node := by
  have hquery := (issues_eq_nil_iff_isQuery raw).1 hchecked
  obtain ⟨q, hread, hsame, hwritten, hagain⟩ := exists_ofValue? hquery hwf
  refine ⟨q, parse_of_isQuery hquery hread, hsame, (issues_eq_nil_iff_isQuery _).2 hwritten,
    parse_of_isQuery hwritten hagain, ?_⟩
  rintro ms filter node rfl hfilter hnode
  obtain ⟨ms', hms, hmembers⟩ := hquery
  rw [← Value.map.inj hms] at hmembers
  have hclause : IsClause filter := (hmembers _ (Members.mem_of_get? hfilter)).filter rfl
  have hnodeClause := Clause.isClause_of_isNode hclause hnode
  obtain ⟨c, hc, -, -⟩ := Clause.exists_ofValue? hnodeClause
    (Clause.wellFormed_of_isNode (hwf.get? hfilter) hnode)
  exact ⟨Clause.existsUnique_shape hnodeClause hc,
    fun order read horder hreader => hreader.eq_ofValue? horder hnodeClause⟩

/-- A query with its members out of order, a condition in a negation, and a bare order key. -/
def unorderedQuery : Value :=
  .map [("order-by", .list [.str "at", .list [.str "level", .str "desc"]]),
    ("where", .map [("or", .list [.map [("not",
      .map [("value", .list []), ("field", .str "level"), ("operator", .str "in")])]])]),
    ("limit", .num (.int 3))]

/-- It is read, and its bare order key sorts ascending. -/
theorem parse_of_checked_unorderedQuery :
    unorderedQuery.WellFormed ∧ issues unorderedQuery = [] ∧
      ∃ q, parse unorderedQuery = .ok q ∧ Respelled unorderedQuery q.toValue ∧
        q.orderBy = some [⟨"at", .asc⟩, ⟨"level", .desc⟩] := by
  have hwf : unorderedQuery.WellFormed := by
    simp [unorderedQuery, Value.WellFormed, Value.WellFormedMembers, Value.WellFormedItems,
      Members.keys, Number.InRange, Double.wordFloor, Double.wordCeil]
  have hchecked : issues unorderedQuery = [] := by decide +kernel
  obtain ⟨q, hparse, hsame, -⟩ := parse_of_checked hwf hchecked
  refine ⟨hwf, hchecked, q, hparse, hsame, ?_⟩
  have hq : (ofValue? unorderedQuery).map Query.orderBy
      = some (some [⟨"at", .asc⟩, ⟨"level", .desc⟩]) := by decide +kernel
  rw [parse, hchecked] at hparse
  cases hread : ofValue? unorderedQuery with
  | none =>
    rw [hread] at hparse
    exact absurd hparse (by simp)
  | some q' =>
    rw [hread] at hparse hq
    rw [← Except.ok.inj hparse]
    exact Option.some.inj hq

end Query

end Logbook
