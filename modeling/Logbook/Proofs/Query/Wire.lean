import Mathlib.Data.Nat.Notation
import Logbook.Proofs.Query.Shape

/-!
# Queries read back

A clause, an order key and a query that were written as values are read back as they were, whatever
names and operands stand in them.  A clause is read as the first shape that fits, so the point is
that no clause of one shape is taken for another: what is written has the keys of its own shape and
no others.  Then it does not even matter which shape is tried first.

A query is written part by part, each part under a name of its own, and a part is found again under
its name wherever it stands.

* `OrderKey.ofValue?_toValue`, `Clause.IsReader.read_toValue`: keys and clauses are read back.
* `Query.get?_part`: what is under a name in a part that was written.
* `Query.ofValue?_toValue`: queries are read back.
* `Query.reading_undoes_writing`: all three.
-/

namespace Logbook

/-! ## Order keys and clauses -/

/-- An order key is read back from its pair. -/
theorem OrderKey.ofValue?_toValue (key : OrderKey) : ofValue? key.toValue = some key := by
  rw [toValue, ofValue?, Value.word?, Option.bind_some, Direction.ofName?_name, Option.map_some]

theorem Condition.ofMembers?_toMembers (c : Condition) : ofMembers? c.toMembers = some c := by
  have hfield : Members.get? "field" c.toMembers = some (.str c.field) := rfl
  have hoperator : Members.get? "operator" c.toMembers = some (.str c.operator.name) := rfl
  have hvalue : Members.get? "value" c.toMembers = some c.operand := rfl
  rw [ofMembers?, hfield, hoperator, hvalue]
  dsimp only
  rw [ofParts?, Value.word?, Option.bind_some, Operator.ofName?_name, Option.map_some]

namespace Clause

theorem hasExactly_singleton (key : String) (v : Value) : HasExactly [key] [(key, v)] :=
  fun _ => Iff.rfl

theorem toValues_eq_map (cs : List Clause) : toValues cs = cs.map toValue := by
  induction cs with
  | nil => rw [toValues, List.map_nil]
  | cons c cs ih => rw [toValues, List.map_cons, ih]

mutual

/-- **A clause is read back from its value, in whatever order a reader tries the shapes.** -/
theorem IsReader.read_toValue {order : List Shape} {read : Value → Option Clause}
    (hread : IsReader order read) (horder : ∀ s, s ∈ order) :
    ∀ c : Clause, read (toValue c) = some c
  | .condition c => by
    have hkeys : HasExactly Shape.condition.keys c.toMembers := fun _ => Iff.rfl
    rw [toValue, hread.map_eq horder hkeys, ofShape?, Condition.ofMembers?_toMembers,
      Option.map_some]
  | .conj cs => by
    have hkeys : HasExactly Shape.conj.keys _ := hasExactly_singleton "and" (.list (toValues cs))
    rw [toValue, hread.map_eq horder hkeys, ofShape?, Members.get?_cons, if_pos rfl,
      Option.bind_some, ofListBy?, hread.mapM_toValues horder cs, Option.map_some]
  | .disj cs => by
    have hkeys : HasExactly Shape.disj.keys _ := hasExactly_singleton "or" (.list (toValues cs))
    rw [toValue, hread.map_eq horder hkeys, ofShape?, Members.get?_cons, if_pos rfl,
      Option.bind_some, ofListBy?, hread.mapM_toValues horder cs, Option.map_some]
  | .neg c => by
    have hkeys : HasExactly Shape.neg.keys _ := hasExactly_singleton "not" (toValue c)
    rw [toValue, hread.map_eq horder hkeys, ofShape?, Members.get?_cons, if_pos rfl,
      Option.bind_some, hread.read_toValue horder c, Option.map_some]

theorem IsReader.mapM_toValues {order : List Shape} {read : Value → Option Clause}
    (hread : IsReader order read) (horder : ∀ s, s ∈ order) :
    ∀ cs : List Clause, (toValues cs).mapM read = some cs
  | [] => by
    rw [toValues, List.mapM_nil]
    rfl
  | c :: cs => by
    rw [toValues, List.mapM_cons, hread.read_toValue horder c, hread.mapM_toValues horder cs]
    rfl

end

theorem ofValue?_toValue (c : Clause) : ofValue? (toValue c) = some c :=
  isReader_ofValue?.read_toValue mem_shapes_all c

theorem toValue_ne_null (c : Clause) : c.toValue ≠ .null := by
  cases c <;> rw [toValue] <;> exact Value.noConfusion

end Clause

/-! ## Queries -/

theorem Value.natural?_ofNat {n : ℕ} (h : n < Nat.pow 2 64) : (Value.ofNat n).natural? = some n := by
  have hceil : Nat.pow 2 64 = 18446744073709551616 := rfl
  rw [hceil] at h
  rw [ofNat, natural?, if_pos ⟨Int.natCast_nonneg n, by rw [Double.wordCeil]; omega⟩,
    Int.toNat_natCast]

namespace Query

/-- A list whose items are read back one by one is read back. -/
theorem mapM_map_eq_some {α : Type} {read : Value → Option α} {write : α → Value}
    (h : ∀ a, read (write a) = some a) (as : List α) : (as.map write).mapM read = some as := by
  induction as with
  | nil => rfl
  | cons a as ih =>
    rw [List.map_cons, List.mapM_cons, h, ih]
    rfl

theorem names?_namesToValue (names : List String) : names? (namesToValue names) = some names := by
  have hread : ∀ name, Value.string? (.str name) = some name := fun _ => rfl
  exact mapM_map_eq_some hread names

theorem orderKeys?_toValue (keys : List OrderKey) :
    orderKeys? (.list (keys.map OrderKey.toValue)) = some keys :=
  mapM_map_eq_some OrderKey.ofValue?_toValue keys

/-- A part stands under its own name and under no other. -/
theorem get?_part {α : Type} (key name : String) (write : α → Value) (o : Option α) :
    Members.get? key (part name write o) = if name = key then o.map write else none := by
  cases o with
  | none => rw [part, Members.get?_nil, Option.map_none, ite_self]
  | some a => rw [part, Members.get?_cons, Members.get?_nil, Option.map_some]

theorem part?_some {α : Type} {read : Value → Option α} {v : Value} (h : v ≠ .null) :
    part? read (some v) = (read v).map some := by
  cases v with
  | null => exact absurd rfl h
  | _ => rfl

/-- A part is read back unless it was written as null, which stands for no part. -/
theorem part?_map {α : Type} {read : Value → Option α} {write : α → Value} {o : Option α}
    (h : ∀ a, o = some a → read (write a) = some a ∧ write a ≠ .null) :
    part? read (o.map write) = some o := by
  cases o with
  | none => rfl
  | some a =>
    obtain ⟨hread, hnull⟩ := h a rfl
    rw [Option.map_some, part?_some hnull, hread, Option.map_some]

/-- **A query is read back from its value** when its limit and offset are words of 64 bits. -/
theorem ofValue?_toValue {q : Query} (hlimit : ∀ n, q.limit = some n → n < Nat.pow 2 64)
    (hoffset : ∀ n, q.offset = some n → n < Nat.pow 2 64) : ofValue? q.toValue = some q := by
  have hnames : ∀ o : Option (List String), part? names? (o.map namesToValue) = some o :=
    fun o => part?_map fun names _ => ⟨names?_namesToValue names, Value.noConfusion⟩
  have hfilter : part? Clause.ofValue? (q.filter.map Clause.toValue) = some q.filter :=
    part?_map fun c _ => ⟨Clause.ofValue?_toValue c, c.toValue_ne_null⟩
  have horder : part? orderKeys? (q.orderBy.map fun keys => .list (keys.map OrderKey.toValue))
      = some q.orderBy :=
    part?_map fun keys _ => ⟨orderKeys?_toValue keys, Value.noConfusion⟩
  have hnatural : ∀ {o : Option ℕ}, (∀ n, o = some n → n < Nat.pow 2 64) →
      part? Value.natural? (o.map Value.ofNat) = some o :=
    fun h => part?_map fun n hn => ⟨Value.natural?_ofNat (h n hn), Value.noConfusion⟩
  rw [toValue, ofValue?, ofParts?]
  simp [Members.get?_append, get?_part, hnames, hfilter, horder, hnatural hlimit, hnatural hoffset]

/-- **Reading undoes writing.**  Every query is read back from its value, whether or not it would pass
the check: names may be any strings, lists may be empty, and operands may be anything, a null or a map
that looks like a clause.  Limit and offset are words of 64 bits.  The same holds of clauses and of
order keys.  No clause is taken for one of another shape, so that a reader that tries the shapes in
another order reads it back as well. -/
theorem reading_undoes_writing :
    (∀ q : Query, (∀ n, q.limit = some n → n < Nat.pow 2 64) →
      (∀ n, q.offset = some n → n < Nat.pow 2 64) → ofValue? q.toValue = some q) ∧
    (∀ c : Clause, Clause.ofValue? c.toValue = some c ∧
      ∀ order read, (∀ s, s ∈ order) → Clause.IsReader order read → read c.toValue = some c) ∧
    ∀ key : OrderKey, OrderKey.ofValue? key.toValue = some key := by
  refine ⟨fun q hlimit hoffset => ofValue?_toValue hlimit hoffset, fun c => ?_,
    OrderKey.ofValue?_toValue⟩
  refine ⟨Clause.ofValue?_toValue c, fun order read horder hread => ?_⟩
  exact hread.read_toValue horder c

/-- A query that would not pass the check.  It has empty lists and reserved names, and conditions
whose operands are a null and a map that looks like a clause. -/
def uncheckedQuery : Query where
  find := some []
  filter := some (.neg (.disj [.conj [], .condition ⟨"", .startsWith, .null⟩,
    .condition ⟨"and", .eq, .map [("not", .null), ("and", .list [.map []])]⟩]))
  groupBy := some ["count", "entries", "count"]
  orderBy := some [⟨"", .desc⟩, ⟨"order by", .asc⟩]
  limit := some (Nat.pow 2 64 - 1)
  offset := none

/-- It is read back. -/
theorem reading_undoes_writing_uncheckedQuery :
    (∀ n, uncheckedQuery.limit = some n → n < Nat.pow 2 64) ∧
      ofValue? uncheckedQuery.toValue = some uncheckedQuery := by
  have hlimit : ∀ n, uncheckedQuery.limit = some n → n < Nat.pow 2 64 := by
    rintro n ⟨⟩
    decide
  exact ⟨hlimit, reading_undoes_writing.1 uncheckedQuery hlimit nofun⟩

end Query

end Logbook
