import Mathlib.Data.Int.Notation
import Mathlib.Data.Nat.Notation
import Mathlib.Tactic.MkIffOfInductiveProp
import Mathlib.Tactic.Tauto
import Logbook.Proofs.Value.Members
import Logbook.Query.Validation

/-!
# The grammar of queries

What a query from outside may look like, said without the checker: the names that a field may have,
the lists of names and of order keys, and the clauses as an inductive predicate.  The checker, which
walks the whole value and gathers issues, finds nothing exactly on the values of this grammar.

For the clauses the argument turns on the shapes.  A map shows a shape when it has one of the keys
of that shape, and no key belongs to two shapes.  So a map that shows one shape only, and has no
unknown keys, has no keys but those of the shape (`Clause.shown_iff`).  After that the checker and
the grammar go into the same members.

* `IsFieldName`, `IsFieldList`, `IsOrderKey`, `IsNatural`: the parts of a query.
* `IsClause`: the clauses.
* `IsQuery`, `Query.issues_eq_nil_iff_isQuery`: the queries, and that the checker accepts these and
  no more.
-/

namespace Logbook

/-! ## The grammar -/

/-- A string that starts with a letter, `_`, `@` or `$` and goes on with these, digits, `.`, `-`,
`/` and `:`. -/
def IsFieldName (v : Value) : Prop :=
  ∃ name c rest, v = .str name ∧ name.toList = c :: rest ∧
    (c.isAlpha = true ∨ c ∈ ['_', '@', '$']) ∧
      ∀ d ∈ rest, d.isAlphanum = true ∨ d ∈ ['_', '@', '$', '.', '-', '/', ':']

/-- A list of field names that is not empty. -/
def IsFieldList (v : Value) : Prop :=
  ∃ names, v = .list names ∧ names ≠ [] ∧ ∀ name ∈ names, IsFieldName name

/-- A field list without the names that the entries of groups use. -/
def IsGroupList (v : Value) : Prop :=
  ∃ names, v = .list names ∧ names ≠ [] ∧
    ∀ name ∈ names, IsFieldName name ∧ name ≠ .str "count" ∧ name ≠ .str "entries"

/-- A field name, or a pair of a field name and a direction. -/
def IsOrderKey (v : Value) : Prop :=
  IsFieldName v ∨ ∃ field direction, v = .list [field, .str direction] ∧ IsFieldName field ∧
    (direction = "asc" ∨ direction = "desc")

/-- A list of order keys, which may be empty. -/
def IsOrderList (v : Value) : Prop := ∃ keys, v = .list keys ∧ ∀ key ∈ keys, IsOrderKey key

/-- A natural number of 64 bits that is not written as a double. -/
def IsNatural (v : Value) : Prop := ∃ n : ℕ, n < Nat.pow 2 64 ∧ v = .num (.int n)

/-- The names of the operators. -/
def operatorNames : List String :=
  ["eq", "ne", "gt", "gte", "lt", "lte", "in", "contains", "starts-with", "ends-with"]

/-- An operand that an operator takes: `in` takes a list, `starts-with` and `ends-with` take a
string, the others take anything. -/
def IsOperand (operator : String) (v : Value) : Prop :=
  (operator = "in" → ∃ items, v = .list items) ∧
    (operator = "starts-with" ∨ operator = "ends-with" → ∃ s, v = .str s)

/-- Holds of the maps that have exactly these keys. -/
def HasExactly (keys : List String) (ms : Members) : Prop :=
  ∀ key, key ∈ Members.keys ms ↔ key ∈ keys

/-- A clause: a condition, a list of clauses under `and` or `or`, or a clause under `not`. -/
inductive IsClause : Value → Prop where
  | condition {ms : Members} {field operand : Value} {operator : String}
      (hkeys : HasExactly ["field", "operator", "value"] ms)
      (hfield : Members.get? "field" ms = some field) (hname : IsFieldName field)
      (hoperator : Members.get? "operator" ms = some (.str operator))
      (hknown : operator ∈ operatorNames)
      (hvalue : Members.get? "value" ms = some operand) (hoperand : IsOperand operator operand) :
      IsClause (.map ms)
  | conj {ms : Members} {clauses : List Value} (hkeys : HasExactly ["and"] ms)
      (hvalue : Members.get? "and" ms = some (.list clauses))
      (hclauses : ∀ clause ∈ clauses, IsClause clause) : IsClause (.map ms)
  | disj {ms : Members} {clauses : List Value} (hkeys : HasExactly ["or"] ms)
      (hvalue : Members.get? "or" ms = some (.list clauses))
      (hclauses : ∀ clause ∈ clauses, IsClause clause) : IsClause (.map ms)
  | neg {ms : Members} {clause : Value} (hkeys : HasExactly ["not"] ms)
      (hvalue : Members.get? "not" ms = some clause) (hclause : IsClause clause) :
      IsClause (.map ms)

/-- A member of a query: its key is one of six, and each key has values of its own. -/
@[mk_iff] structure IsMember (key : String) (v : Value) : Prop where
  known : key ∈ ["find", "where", "group-by", "order-by", "limit", "offset"]
  find : key = "find" → IsFieldList v
  filter : key = "where" → IsClause v
  groupBy : key = "group-by" → IsGroupList v
  orderBy : key = "order-by" → IsOrderList v
  limit : key = "limit" → IsNatural v
  offset : key = "offset" → IsNatural v

/-- A query: a map with members of these kinds, each of them there or not. -/
def IsQuery (v : Value) : Prop := ∃ ms, v = .map ms ∧ ∀ m ∈ ms, IsMember m.1 m.2

/-! ## Names and lists -/

theorem Issue.ofItems_eq_nil_iff {issues : Value → List Issue} :
    ∀ {xs : List Value} {start : ℕ}, ofItems issues start xs = [] ↔ ∀ x ∈ xs, issues x = []
  | [], start => by
    rw [ofItems]
    exact ⟨fun _ x hx => absurd hx List.not_mem_nil, fun _ => rfl⟩
  | x :: xs, start => by
    rw [ofItems, List.append_eq_nil_iff, List.map_eq_nil_iff, ofItems_eq_nil_iff,
      List.forall_mem_cons]

namespace Field

theorem isStart_iff (c : Char) :
    isStart c = true ↔ c.isAlpha = true ∨ c ∈ ['_', '@', '$'] := by
  have halpha : c.isAlpha = (decide (c.val ≥ 'A'.val ∧ c.val ≤ 'Z'.val)
      || (decide (c.val ≥ 'a'.val) && decide (c.val ≤ 'z'.val))) := rfl
  simp only [isStart, halpha, Bool.or_eq_true, Bool.and_eq_true, decide_eq_true_eq, beq_iff_eq,
    Char.le_def, ge_iff_le, List.mem_cons, List.not_mem_nil, or_false]
  tauto

theorem isRest_iff (c : Char) :
    isRest c = true ↔ c.isAlphanum = true ∨ c ∈ ['_', '@', '$', '.', '-', '/', ':'] := by
  have halphanum : c.isAlphanum
      = (c.isAlpha || (decide (c.val ≥ '0'.val) && decide (c.val ≤ '9'.val))) := rfl
  rw [isRest, halphanum]
  simp only [Bool.or_eq_true, isStart_iff, Bool.and_eq_true, decide_eq_true_eq, beq_iff_eq,
    Char.le_def, ge_iff_le, List.mem_cons, List.not_mem_nil, or_false]
  tauto

theorem issues_eq_nil_iff {v : Value} : Field.issues v = [] ↔ IsFieldName v := by
  cases v with
  | str name =>
    have hname : isName name = true ↔ IsFieldName (.str name) := by
      unfold isName
      cases hlist : name.toList with
      | nil =>
        refine ⟨fun h => absurd h (by simp), ?_⟩
        rintro ⟨name', c, rest, hv, hcons, -⟩
        rw [← Value.str.inj hv, hlist] at hcons
        exact absurd hcons (by simp)
      | cons c rest =>
        rw [Bool.and_eq_true, isStart_iff, List.all_eq_true]
        simp only [isRest_iff]
        refine ⟨fun ⟨hc, hrest⟩ => ⟨name, c, rest, rfl, hlist, hc, hrest⟩, ?_⟩
        rintro ⟨name', c', rest', hv, hcons, hc, hrest⟩
        rw [← Value.str.inj hv, hlist] at hcons
        obtain ⟨rfl, rfl⟩ := List.cons.inj hcons
        exact ⟨hc, hrest⟩
    rw [Field.issues, ← hname]
    by_cases h : isName name = true
    · rw [if_pos h]
      exact ⟨fun _ => h, fun _ => rfl⟩
    · rw [if_neg h]
      exact ⟨fun h => absurd h (by simp), fun h' => absurd h' h⟩
  | _ =>
    exact ⟨fun h => absurd h (by simp [Field.issues]), fun ⟨_, _, _, h, _⟩ => Value.noConfusion h⟩

theorem listIssues_eq_nil_iff {v : Value} : listIssues v = [] ↔ IsFieldList v := by
  unfold listIssues
  split
  · refine ⟨fun h => absurd h (by simp), ?_⟩
    rintro ⟨names, hv, hne, -⟩
    exact absurd (Value.list.inj hv).symm hne
  · rename_i xs hne
    simp only [Issue.ofItems_eq_nil_iff, issues_eq_nil_iff]
    refine ⟨fun h => ⟨xs, rfl, hne, h⟩, ?_⟩
    rintro ⟨names, hv, -, h⟩
    rw [Value.list.inj hv]
    exact h
  · rename_i hlist
    refine ⟨fun h => absurd h (by simp), ?_⟩
    rintro ⟨names, rfl, -⟩
    exact absurd rfl (hlist names)

theorem reservedIssues_eq_nil_iff {v : Value} :
    reservedIssues v = [] ↔ v ≠ .str "count" ∧ v ≠ .str "entries" := by
  cases v with
  | str name =>
    rw [reservedIssues, ne_eq, ne_eq, Value.str.injEq, Value.str.injEq, ← not_or]
    by_cases h : name = "count" ∨ name = "entries"
    · rw [if_pos h]
      exact ⟨fun h' => absurd h' (by simp), fun h' => absurd h h'⟩
    · rw [if_neg h]
      exact ⟨fun _ => h, fun _ => rfl⟩
  | _ => exact ⟨fun _ => ⟨Value.noConfusion, Value.noConfusion⟩, fun _ => rfl⟩

theorem groupIssues_eq_nil_iff {v : Value} :
    listIssues v ++ groupIssues v = [] ↔ IsGroupList v := by
  rw [List.append_eq_nil_iff, listIssues_eq_nil_iff]
  constructor
  · rintro ⟨⟨names, rfl, hne, hnames⟩, h⟩
    rw [groupIssues, Issue.ofItems_eq_nil_iff] at h
    exact ⟨names, rfl, hne, fun name hname =>
      ⟨hnames name hname, reservedIssues_eq_nil_iff.1 (h name hname)⟩⟩
  · rintro ⟨names, rfl, hne, h⟩
    refine ⟨⟨names, rfl, hne, fun name hname => (h name hname).1⟩, ?_⟩
    rw [groupIssues, Issue.ofItems_eq_nil_iff]
    exact fun name hname => reservedIssues_eq_nil_iff.2 (h name hname).2

end Field

namespace OrderKey

theorem directionIssues_eq_nil_iff {v : Value} :
    directionIssues v = [] ↔ ∃ name, v = .str name ∧ (name = "asc" ∨ name = "desc") := by
  cases v with
  | str name =>
    rw [directionIssues, Direction.ofName?]
    constructor
    · intro h
      refine ⟨name, rfl, ?_⟩
      by_cases hasc : name = "asc"
      · exact Or.inl hasc
      by_cases hdesc : name = "desc"
      · exact Or.inr hdesc
      rw [if_neg hasc, if_neg hdesc] at h
      exact absurd h (by simp)
    · rintro ⟨name', hv, rfl | rfl⟩ <;> rw [Value.str.inj hv] <;> rfl
  | _ =>
    exact ⟨fun h => absurd h (by simp [directionIssues]), fun ⟨_, h, _⟩ => Value.noConfusion h⟩

theorem issues_eq_nil_iff {v : Value} : OrderKey.issues v = [] ↔ IsOrderKey v := by
  unfold OrderKey.issues
  split
  · rw [Field.issues_eq_nil_iff]
    refine ⟨Or.inl, ?_⟩
    rintro (h | ⟨field, direction, h, -⟩)
    · exact h
    · exact Value.noConfusion h
  · rename_i field direction
    rw [List.append_eq_nil_iff, List.map_eq_nil_iff, List.map_eq_nil_iff, Field.issues_eq_nil_iff,
      directionIssues_eq_nil_iff]
    constructor
    · rintro ⟨hfield, name, rfl, hname⟩
      exact Or.inr ⟨field, name, rfl, hfield, hname⟩
    · rintro (⟨name, c, rest, h, -⟩ | ⟨field', name, h, hfield, hname⟩)
      · exact Value.noConfusion h
      · obtain ⟨rfl, htail⟩ := List.cons.inj (Value.list.inj h)
        exact ⟨hfield, name, (List.cons.inj htail).1, hname⟩
  · rename_i hstr hpair
    refine ⟨fun h => absurd h (by simp), ?_⟩
    rintro (⟨name, c, rest, rfl, -⟩ | ⟨field, name, rfl, -⟩)
    · exact absurd rfl (hstr name)
    · exact absurd rfl (hpair field (.str name))

theorem listIssues_eq_nil_iff {v : Value} : OrderKey.listIssues v = [] ↔ IsOrderList v := by
  cases v with
  | list keys =>
    rw [OrderKey.listIssues, Issue.ofItems_eq_nil_iff]
    simp only [OrderKey.issues_eq_nil_iff]
    refine ⟨fun h => ⟨keys, rfl, h⟩, ?_⟩
    rintro ⟨keys', h, hkeys⟩
    rw [Value.list.inj h]
    exact hkeys
  | _ =>
    exact ⟨fun h => absurd h (by simp [OrderKey.listIssues]), fun ⟨_, h, _⟩ => Value.noConfusion h⟩

end OrderKey

theorem Value.natural?_eq_some_iff {v : Value} {n : ℕ} :
    v.natural? = some n ↔ n < Nat.pow 2 64 ∧ v = .num (.int n) := by
  have hceil : Nat.pow 2 64 = 18446744073709551616 := rfl
  rw [hceil]
  unfold Value.natural?
  split
  · rename_i i
    rw [Value.num.injEq, Number.int.injEq, Double.wordCeil]
    split
    · rw [Option.some.injEq]
      omega
    · refine ⟨fun h => absurd h (by simp), fun h => ?_⟩
      omega
  · rename_i hint
    exact ⟨fun h => absurd h (by simp), fun h => absurd h.2 (hint n)⟩

theorem Query.naturalIssues_eq_nil_iff {v : Value} : naturalIssues v = [] ↔ IsNatural v := by
  unfold naturalIssues
  cases h : v.natural? with
  | none =>
    refine ⟨fun h' => absurd h' (by simp), ?_⟩
    rintro ⟨n, hn⟩
    rw [Value.natural?_eq_some_iff.2 hn] at h
    exact absurd h (by simp)
  | some n => exact ⟨fun _ => ⟨n, Value.natural?_eq_some_iff.1 h⟩, fun _ => rfl⟩

/-! ## Conditions -/

namespace Condition

theorem ofName?_eq_some_iff {name : String} {op : Operator} :
    Operator.ofName? name = some op ↔ op.name = name := by
  refine ⟨fun h => ?_, fun h => ?_⟩
  · have hname := List.find?_some h
    exact of_decide_eq_true hname
  · rw [← h, Operator.ofName?_name]

theorem mem_operatorNames_iff {name : String} :
    name ∈ operatorNames ↔ ∃ op : Operator, op.name = name := by
  constructor
  · intro h
    have hall : operatorNames = Operator.all.map Operator.name := by decide
    rw [hall, List.mem_map] at h
    exact h.imp fun _ => And.right
  · rintro ⟨op, rfl⟩
    cases op <;> decide

theorem operandCause?_eq_none_iff {op : Operator} {v : Value} :
    operandCause? op v = none ↔ IsOperand op.name v := by
  cases op <;> cases v <;> simp [operandCause?, IsOperand, Operator.name]

theorem fieldIssues_eq_nil_iff {ms : Members} {v : Value}
    (hv : Members.get? "field" ms = some v) : fieldIssues ms = [] ↔ IsFieldName v := by
  rw [fieldIssues, hv]
  exact List.map_eq_nil_iff.trans Field.issues_eq_nil_iff

theorem operatorIssues_eq_nil_iff {ms : Members} {v : Value}
    (hv : Members.get? "operator" ms = some v) :
    operatorIssues ms = [] ↔ ∃ name, v = .str name ∧ name ∈ operatorNames := by
  rw [operatorIssues, hv]
  cases v with
  | str name =>
    dsimp only
    cases hop : Operator.ofName? name with
    | none =>
      refine ⟨fun h => absurd h (by simp), ?_⟩
      rintro ⟨name', h, hknown⟩
      obtain ⟨op, hname⟩ := mem_operatorNames_iff.1 hknown
      rw [ofName?_eq_some_iff.2 (hname.trans (Value.str.inj h).symm)] at hop
      exact absurd hop (by simp)
    | some op =>
      exact ⟨fun _ => ⟨name, rfl, mem_operatorNames_iff.2 ⟨op, ofName?_eq_some_iff.1 hop⟩⟩,
        fun _ => rfl⟩
  | _ => exact ⟨fun h => absurd h (by simp), fun ⟨_, h, _⟩ => Value.noConfusion h⟩

theorem operandIssues_eq_nil_iff {ms : Members} {name : String} {operand : Value}
    (hname : Members.get? "operator" ms = some (.str name)) (hknown : name ∈ operatorNames)
    (hoperand : Members.get? "value" ms = some operand) :
    operandIssues ms = [] ↔ IsOperand name operand := by
  obtain ⟨op, rfl⟩ := mem_operatorNames_iff.1 hknown
  rw [operandIssues, operator?, hname, hoperand, ← operandCause?_eq_none_iff]
  dsimp only
  rw [Operator.ofName?_name]
  dsimp only
  cases operandCause? op operand with
  | none => exact ⟨fun _ => rfl, fun _ => rfl⟩
  | some cause => exact ⟨fun h => absurd h (by simp), fun h => absurd h (by simp)⟩

theorem missingIssues_eq_nil_iff {ms : Members} :
    missingIssues ms = [] ↔ ∀ key ∈ keys, key ∈ Members.keys ms := by
  rw [missingIssues, List.map_eq_nil_iff, List.filter_eq_nil_iff]
  refine forall₂_congr fun key _ => ?_
  rw [Bool.not_eq_true', Bool.not_eq_false, Members.has_iff]

/-- What a condition says of its three members. -/
theorem issues_eq_nil_iff {ms : Members} : Condition.issues ms = [] ↔
    ∃ field operator operand, Members.get? "field" ms = some field ∧ IsFieldName field ∧
      Members.get? "operator" ms = some (.str operator) ∧ operator ∈ operatorNames ∧
      Members.get? "value" ms = some operand ∧ IsOperand operator operand := by
  rw [Condition.issues, List.append_eq_nil_iff, List.append_eq_nil_iff, List.append_eq_nil_iff,
    missingIssues_eq_nil_iff]
  constructor
  · rintro ⟨⟨⟨hkeys, hfield⟩, hoperator⟩, hoperand⟩
    obtain ⟨field, hgetField⟩ := Members.mem_keys_iff.1 (hkeys "field" (by decide))
    obtain ⟨operator, hgetOperator⟩ := Members.mem_keys_iff.1 (hkeys "operator" (by decide))
    obtain ⟨operand, hgetOperand⟩ := Members.mem_keys_iff.1 (hkeys "value" (by decide))
    obtain ⟨name, rfl, hknown⟩ := (operatorIssues_eq_nil_iff hgetOperator).1 hoperator
    exact ⟨field, name, operand, hgetField, (fieldIssues_eq_nil_iff hgetField).1 hfield,
      hgetOperator, hknown, hgetOperand,
      (operandIssues_eq_nil_iff hgetOperator hknown hgetOperand).1 hoperand⟩
  · rintro ⟨field, name, operand, hgetField, hfield, hgetOperator, hknown, hgetOperand, hoperand⟩
    refine ⟨⟨⟨?_, (fieldIssues_eq_nil_iff hgetField).2 hfield⟩,
      (operatorIssues_eq_nil_iff hgetOperator).2 ⟨name, rfl, hknown⟩⟩,
      (operandIssues_eq_nil_iff hgetOperator hknown hgetOperand).2 hoperand⟩
    rw [Condition.keys, List.forall_mem_cons, List.forall_mem_cons, List.forall_mem_singleton]
    exact ⟨Members.mem_keys_iff.2 ⟨_, hgetField⟩, Members.mem_keys_iff.2 ⟨_, hgetOperator⟩,
      Members.mem_keys_iff.2 ⟨_, hgetOperand⟩⟩

end Condition

/-! ## Shapes -/

/-- The keys that make a map show a shape. -/
def Shape.keys : Shape → List String
  | condition => Condition.keys
  | conj => ["and"]
  | disj => ["or"]
  | neg => ["not"]

namespace Clause

/-- No key belongs to two shapes. -/
theorem eq_of_mem_keys {s t : Shape} {key : String} (hs : key ∈ s.keys) (ht : key ∈ t.keys) :
    s = t := by
  cases s <;> cases t <;> first | rfl | (exfalso; revert key; decide)

theorem mem_shapes_iff {ms : Members} {s : Shape} :
    s ∈ shapes ms ↔ ∃ key ∈ s.keys, key ∈ Members.keys ms := by
  cases s <;> simp [shapes, Shape.keys, Condition.keys, Members.has_iff]

theorem nodup_shapes (ms : Members) : (shapes ms).Nodup := by
  unfold shapes
  split <;> split <;> split <;> split <;> decide

theorem unknownKeyIssues_eq_nil_iff {ms : Members} :
    unknownKeyIssues ms = [] ↔ ∀ key ∈ Members.keys ms, ∃ s : Shape, key ∈ s.keys := by
  have hkeys : Condition.keys ++ ["and", "or", "not"]
      = [Shape.condition, .conj, .disj, .neg].flatMap Shape.keys := rfl
  rw [unknownKeyIssues, List.map_eq_nil_iff, List.filter_eq_nil_iff, hkeys]
  refine forall₂_congr fun key _ => ?_
  rw [Bool.not_eq_true', Bool.not_eq_false, List.contains_iff_mem, List.mem_flatMap]
  refine exists_congr fun s => ⟨And.right, fun h => ⟨?_, h⟩⟩
  cases s <;> decide

/-- **A map that shows one shape, and has no unknown keys, has keys of this shape only.** -/
theorem shown_iff {ms : Members} {s : Shape} :
    shapes ms = [s] ∧ unknownKeyIssues ms = [] ↔
      (∃ key ∈ s.keys, key ∈ Members.keys ms) ∧ ∀ key ∈ Members.keys ms, key ∈ s.keys := by
  rw [unknownKeyIssues_eq_nil_iff]
  constructor
  · rintro ⟨hshapes, hknown⟩
    refine ⟨mem_shapes_iff.1 (hshapes ▸ List.mem_singleton_self s), fun key hkey => ?_⟩
    obtain ⟨t, ht⟩ := hknown key hkey
    have hmem : t ∈ shapes ms := mem_shapes_iff.2 ⟨key, ht, hkey⟩
    rw [hshapes, List.mem_singleton] at hmem
    exact hmem ▸ ht
  · rintro ⟨hsome, hall⟩
    refine ⟨List.perm_singleton.1 ?_, fun key hkey => ⟨s, hall key hkey⟩⟩
    rw [List.perm_ext_iff_of_nodup (nodup_shapes ms) (List.pairwise_singleton _ s)]
    intro t
    rw [List.mem_singleton]
    constructor
    · intro ht
      obtain ⟨key, hkey, hmem⟩ := mem_shapes_iff.1 ht
      exact eq_of_mem_keys hkey (hall key hmem)
    · rintro rfl
      exact mem_shapes_iff.2 hsome

/-! ## Clauses -/

/-- What is wrong with the members of a map that shows one shape. -/
def bodyIssues (ms : Members) : Shape → List Issue
  | .condition => Condition.issues ms
  | .conj => issuesUnderList "and" ms
  | .disj => issuesUnderList "or" ms
  | .neg => issuesUnder "not" ms

theorem issues_map_eq_nil_iff {ms : Members} : issues (.map ms) = [] ↔
    ∃ s, (shapes ms = [s] ∧ unknownKeyIssues ms = []) ∧ bodyIssues ms s = [] := by
  rw [issues]
  constructor
  · intro h
    split at h
    · exact absurd h (by simp)
    · rename_i hs
      exact ⟨.condition, ⟨hs, (List.append_eq_nil_iff.1 h).1⟩, (List.append_eq_nil_iff.1 h).2⟩
    · rename_i hs
      exact ⟨.conj, ⟨hs, (List.append_eq_nil_iff.1 h).1⟩, (List.append_eq_nil_iff.1 h).2⟩
    · rename_i hs
      exact ⟨.disj, ⟨hs, (List.append_eq_nil_iff.1 h).1⟩, (List.append_eq_nil_iff.1 h).2⟩
    · rename_i hs
      exact ⟨.neg, ⟨hs, (List.append_eq_nil_iff.1 h).1⟩, (List.append_eq_nil_iff.1 h).2⟩
    · exact absurd h (by simp)
  · rintro ⟨s, ⟨hs, hunknown⟩, hbody⟩
    rw [hs]
    cases s <;> exact List.append_eq_nil_iff.2 ⟨hunknown, hbody⟩

/-- What the grammar asks of the members of a shape. -/
def IsBody (ms : Members) : Shape → Prop
  | .condition => ∃ field operator operand, Members.get? "field" ms = some field ∧
      IsFieldName field ∧ Members.get? "operator" ms = some (.str operator) ∧
      operator ∈ operatorNames ∧ Members.get? "value" ms = some operand ∧
      IsOperand operator operand
  | .conj => ∃ clauses, Members.get? "and" ms = some (.list clauses) ∧ ∀ c ∈ clauses, IsClause c
  | .disj => ∃ clauses, Members.get? "or" ms = some (.list clauses) ∧ ∀ c ∈ clauses, IsClause c
  | .neg => ∃ clause, Members.get? "not" ms = some clause ∧ IsClause clause

theorem isClause_map_iff {ms : Members} :
    IsClause (.map ms) ↔ ∃ s : Shape, HasExactly s.keys ms ∧ IsBody ms s := by
  constructor
  · rintro (⟨hkeys, hfield, hname, hoperator, hknown, hvalue, hoperand⟩ |
      ⟨hkeys, hvalue, hclauses⟩ | ⟨hkeys, hvalue, hclauses⟩ | ⟨hkeys, hvalue, hclause⟩)
    · exact ⟨.condition, hkeys, _, _, _, hfield, hname, hoperator, hknown, hvalue, hoperand⟩
    · exact ⟨.conj, hkeys, _, hvalue, hclauses⟩
    · exact ⟨.disj, hkeys, _, hvalue, hclauses⟩
    · exact ⟨.neg, hkeys, _, hvalue, hclause⟩
  · rintro ⟨s, hkeys, hbody⟩
    cases s with
    | condition =>
      obtain ⟨_, _, _, hfield, hname, hoperator, hknown, hvalue, hoperand⟩ := hbody
      exact .condition hkeys hfield hname hoperator hknown hvalue hoperand
    | conj => exact .conj hkeys hbody.choose_spec.1 hbody.choose_spec.2
    | disj => exact .disj hkeys hbody.choose_spec.1 hbody.choose_spec.2
    | neg => exact .neg hkeys hbody.choose_spec.1 hbody.choose_spec.2

/-- The one key of a shape is all that a map has, if it has it and nothing else. -/
theorem hasExactly_singleton_iff {key : String} {ms : Members} :
    HasExactly [key] ms ↔
      (∃ k ∈ [key], k ∈ Members.keys ms) ∧ ∀ k ∈ Members.keys ms, k ∈ [key] := by
  constructor
  · intro h
    exact ⟨⟨key, List.mem_singleton_self key, (h key).2 (List.mem_singleton_self key)⟩,
      fun k hk => (h k).1 hk⟩
  · rintro ⟨⟨k, hk, hmem⟩, hall⟩ l
    refine ⟨hall l, fun hl => ?_⟩
    rw [List.mem_singleton] at hk hl
    rw [hl, ← hk]
    exact hmem

/-- A map with the keys of a shape, and what the grammar asks of it, has no other keys and all of
these. -/
theorem hasExactly_iff {ms : Members} {s : Shape} (hbody : IsBody ms s) :
    HasExactly s.keys ms ↔
      (∃ key ∈ s.keys, key ∈ Members.keys ms) ∧ ∀ key ∈ Members.keys ms, key ∈ s.keys := by
  cases s with
  | condition =>
    obtain ⟨_, _, _, hfield, -, hoperator, -, hvalue, -⟩ := hbody
    have hkeys : ∀ key ∈ Condition.keys, key ∈ Members.keys ms := by
      rw [Condition.keys, List.forall_mem_cons, List.forall_mem_cons, List.forall_mem_singleton]
      exact ⟨Members.mem_keys_iff.2 ⟨_, hfield⟩, Members.mem_keys_iff.2 ⟨_, hoperator⟩,
        Members.mem_keys_iff.2 ⟨_, hvalue⟩⟩
    refine ⟨fun h => ⟨⟨"field", by decide, hkeys _ (by decide)⟩, fun key => (h key).1⟩, ?_⟩
    exact fun h key => ⟨h.2 key, hkeys key⟩
  | conj => exact hasExactly_singleton_iff
  | disj => exact hasExactly_singleton_iff
  | neg => exact hasExactly_singleton_iff

/-- What is under a key that is there. -/
theorem forall_get?_iff {ms : Members} {key : String} (hkey : ∃ k ∈ [key], k ∈ Members.keys ms)
    {P : Value → Prop} :
    (∀ v, Members.get? key ms = some v → P v) ↔ ∃ v, Members.get? key ms = some v ∧ P v := by
  obtain ⟨k, hk, hmem⟩ := hkey
  obtain ⟨v, hv⟩ := Members.mem_keys_iff.1 hmem
  rw [List.mem_singleton] at hk
  rw [hk] at hv
  refine ⟨fun h => ⟨v, hv, h v hv⟩, ?_⟩
  rintro ⟨w, hw, hP⟩ w' hw'
  rw [hw] at hw'
  exact Option.some.inj hw' ▸ hP

theorem exists_list_iff {o : Option Value} {P : List Value → Prop} :
    (∃ v, o = some v ∧ ∃ xs, v = .list xs ∧ P xs) ↔ ∃ xs, o = some (.list xs) ∧ P xs := by
  constructor
  · rintro ⟨_, ho, xs, rfl, h⟩
    exact ⟨xs, ho, h⟩
  · rintro ⟨xs, ho, h⟩
    exact ⟨_, ho, xs, rfl, h⟩

mutual

/-- **The checker finds nothing wrong with a value exactly if it is a clause.** -/
theorem issues_eq_nil_iff : ∀ v : Value, issues v = [] ↔ IsClause v
  | .map ms => by
    rw [issues_map_eq_nil_iff, isClause_map_iff]
    refine exists_congr fun s => ?_
    rw [shown_iff]
    -- the two sides go into the same members only when the map shows the shape
    have hbody : (∃ key ∈ s.keys, key ∈ Members.keys ms) →
        (bodyIssues ms s = [] ↔ IsBody ms s) := by
      intro hsome
      cases s with
      | condition => exact Condition.issues_eq_nil_iff
      | conj =>
        exact (issuesUnderList_eq_nil_iff "and" ms).trans
          ((forall_get?_iff hsome).trans exists_list_iff)
      | disj =>
        exact (issuesUnderList_eq_nil_iff "or" ms).trans
          ((forall_get?_iff hsome).trans exists_list_iff)
      | neg => exact (issuesUnder_eq_nil_iff "not" ms).trans (forall_get?_iff hsome)
    constructor
    · rintro ⟨hshown, h⟩
      have hb := (hbody hshown.1).1 h
      exact ⟨(hasExactly_iff hb).2 hshown, hb⟩
    · rintro ⟨hkeys, hb⟩
      have hshown := (hasExactly_iff hb).1 hkeys
      exact ⟨hshown, (hbody hshown.1).2 hb⟩
  | .null => ⟨fun h => absurd h (by simp [issues]), fun h => nomatch h⟩
  | .bool _ => ⟨fun h => absurd h (by simp [issues]), fun h => nomatch h⟩
  | .num _ => ⟨fun h => absurd h (by simp [issues]), fun h => nomatch h⟩
  | .str _ => ⟨fun h => absurd h (by simp [issues]), fun h => nomatch h⟩
  | .list _ => ⟨fun h => absurd h (by simp [issues]), fun h => nomatch h⟩

theorem listIssues_eq_nil_iff : ∀ v : Value,
    listIssues v = [] ↔ ∃ clauses, v = .list clauses ∧ ∀ c ∈ clauses, IsClause c
  | .list xs => by
    rw [listIssues, itemIssues_eq_nil_iff 0 xs]
    refine ⟨fun h => ⟨xs, rfl, h⟩, ?_⟩
    rintro ⟨clauses, hlist, h⟩
    rw [Value.list.inj hlist]
    exact h
  | .null => ⟨fun h => absurd h (by simp [listIssues]), fun ⟨_, h, _⟩ => nomatch h⟩
  | .bool _ => ⟨fun h => absurd h (by simp [listIssues]), fun ⟨_, h, _⟩ => nomatch h⟩
  | .num _ => ⟨fun h => absurd h (by simp [listIssues]), fun ⟨_, h, _⟩ => nomatch h⟩
  | .str _ => ⟨fun h => absurd h (by simp [listIssues]), fun ⟨_, h, _⟩ => nomatch h⟩
  | .map _ => ⟨fun h => absurd h (by simp [listIssues]), fun ⟨_, h, _⟩ => nomatch h⟩

theorem itemIssues_eq_nil_iff : ∀ (start : ℕ) (xs : List Value),
    itemIssues start xs = [] ↔ ∀ x ∈ xs, IsClause x
  | start, [] => by
    rw [itemIssues]
    exact ⟨fun _ x hx => absurd hx List.not_mem_nil, fun _ => rfl⟩
  | start, x :: xs => by
    rw [itemIssues, List.append_eq_nil_iff, List.map_eq_nil_iff, issues_eq_nil_iff x,
      itemIssues_eq_nil_iff (start + 1) xs, List.forall_mem_cons]

theorem issuesUnderList_eq_nil_iff (key : String) : ∀ ms : List (String × Value),
    issuesUnderList key ms = [] ↔ ∀ v, Members.get? key ms = some v →
      ∃ clauses, v = .list clauses ∧ ∀ c ∈ clauses, IsClause c
  | [] => by
    rw [issuesUnderList]
    exact ⟨fun _ v hv => absurd hv (by simp), fun _ => rfl⟩
  | (k, v) :: ms => by
    rw [issuesUnderList, Members.get?_cons]
    by_cases hk : k = key
    · rw [if_pos hk, if_pos hk, List.map_eq_nil_iff, listIssues_eq_nil_iff v]
      exact ⟨fun h w hw => Option.some.inj hw ▸ h, fun h => h v rfl⟩
    · rw [if_neg hk, if_neg hk]
      exact issuesUnderList_eq_nil_iff key ms

theorem issuesUnder_eq_nil_iff (key : String) : ∀ ms : List (String × Value),
    issuesUnder key ms = [] ↔ ∀ v, Members.get? key ms = some v → IsClause v
  | [] => by
    rw [issuesUnder]
    exact ⟨fun _ v hv => absurd hv (by simp), fun _ => rfl⟩
  | (k, v) :: ms => by
    rw [issuesUnder, Members.get?_cons]
    by_cases hk : k = key
    · rw [if_pos hk, if_pos hk, List.map_eq_nil_iff, issues_eq_nil_iff v]
      exact ⟨fun h w hw => Option.some.inj hw ▸ h, fun h => h v rfl⟩
    · rw [if_neg hk, if_neg hk]
      exact issuesUnder_eq_nil_iff key ms

end

end Clause

/-! ## Queries -/

namespace Query

/-- Each member of a query is checked by the rule of its key. -/
theorem memberIssues_eq_nil_iff {key : String} {v : Value} :
    memberIssues key v = [] ↔ IsMember key v := by
  rw [isMember_iff]
  unfold memberIssues
  split
  · rename_i hkey
    rw [hkey, Field.listIssues_eq_nil_iff]
    simp
  split
  · rename_i hkey
    rw [hkey, Field.groupIssues_eq_nil_iff]
    simp
  split
  · rename_i hkey
    rw [hkey, Clause.issues_eq_nil_iff]
    simp
  split
  · rename_i hkey
    rw [hkey, OrderKey.listIssues_eq_nil_iff]
    simp
  split
  · rename_i hkey
    rw [naturalIssues_eq_nil_iff]
    rcases hkey with rfl | rfl <;> simp
  · simp_all

/-- **The checker accepts exactly the queries of the grammar.** -/
theorem issues_eq_nil_iff_isQuery (raw : Value) : Query.issues raw = [] ↔ IsQuery raw := by
  cases raw with
  | map ms =>
    rw [Query.issues, List.flatMap_eq_nil_iff]
    constructor
    · intro h
      refine ⟨ms, rfl, fun m hm => ?_⟩
      exact memberIssues_eq_nil_iff.1 (List.map_eq_nil_iff.1 (h m hm))
    · rintro ⟨ms', hms, hmembers⟩ m hm
      rw [← Value.map.inj hms] at hmembers
      exact List.map_eq_nil_iff.2 (memberIssues_eq_nil_iff.2 (hmembers m hm))
  | _ => exact ⟨fun h => absurd h (by simp [Query.issues]), fun ⟨_, h, _⟩ => Value.noConfusion h⟩

end Query

end Logbook
