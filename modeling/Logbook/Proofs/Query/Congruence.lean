import Logbook.Proofs.Value.Congruence
import Logbook.Query.Matching

/-!
# Filters do not tell equal values apart

A filter asks about the values of fields.  Whichever operator it asks with, the answer is the same
for equal values and equal operands: equality is transitive, the range operators and the look-up of a
field see canonical forms only, and a text has one spelling.  So a record may be written in another
way, and the operands of a clause too, and the same records are kept.

* `Operator.holds_congr`: an operator on equal fields and equal operands.
* `Clause.Related`, `Clause.Related.induction`: clauses of one shape, and what holds of them.
* `Clause.holds_respects_equality`: a clause on equal records.
-/

namespace Logbook

/-! ## Operators -/

namespace Operator

open Value (Equals)

theorem fieldEquals_congr {f g : Option Value} {a b : Value} (hf : Option.Rel Equals f g)
    (hab : a.Equals b) : fieldEquals f a = fieldEquals g b := by
  refine Equals.equal_congr ?_ hab
  cases hf with
  | none => exact Equals.refl trivial
  | some hvw => exact hvw

theorem fieldCompare?_congr {f g : Option Value} {a b : Value} (hf : Option.Rel Equals f g)
    (hab : a.Equals b) : fieldCompare? f a = fieldCompare? g b := by
  cases hf with
  | none => rfl
  | some hvw => exact hvw.compare?_congr hab

theorem any_congr {xs ys : List Value} (h : List.Forall₂ Equals xs ys) {p q : Value → Bool}
    (hpq : ∀ x y, x.Equals y → p x = q y) : xs.any p = ys.any q := by
  induction h with
  | nil => rfl
  | cons hxy _ ih => rw [List.any_cons, List.any_cons, hpq _ _ hxy, ih]

/-- Membership asks for an operand that is a list. -/
theorem holds_isIn (field : Option Value) (operand : Value) :
    isIn.holds field operand = operand.items?.elim false fun members =>
      members.any (fieldEquals field) := by
  cases operand <;> rfl

/-- The tests on texts ask for a field and an operand that are texts. -/
theorem holds_startsWith (field : Option Value) (operand : Value) :
    startsWith.holds field operand = (field.bind Value.string?).elim false fun s =>
      operand.string?.elim false fun start => start.toList.isPrefixOf s.toList := by
  rcases field with _ | v
  · cases operand <;> rfl
  · cases v <;> cases operand <;> rfl

theorem holds_endsWith (field : Option Value) (operand : Value) :
    endsWith.holds field operand = (field.bind Value.string?).elim false fun s =>
      operand.string?.elim false fun ending => ending.toList.isSuffixOf s.toList := by
  rcases field with _ | v
  · cases operand <;> rfl
  · cases v <;> cases operand <;> rfl

/-- Containment asks for a field that is a text, and then an operand that is one, or for a field
that is a list. -/
theorem fieldContains_eq (field : Option Value) (operand : Value) :
    fieldContains field operand
      = (((field.bind Value.string?).elim false fun s =>
          operand.string?.elim false fun needle => Text.occursIn needle.toList s.toList) ||
        (field.bind Value.items?).elim false fun items => items.any fun item =>
          item.equal operand) := by
  rcases field with _ | v
  · cases operand <;> rfl
  · cases v with
    | str s => cases operand <;> simp [fieldContains, Value.string?, Value.items?]
    | _ => cases operand <;> rfl

theorem string?_congr {f g : Option Value} (hf : Option.Rel Equals f g) :
    f.bind Value.string? = g.bind Value.string? := by
  cases hf with
  | none => rfl
  | some hvw => exact hvw.string?_eq

theorem any_items?_congr {o p : Option (List Value)} (h : Option.Rel (List.Forall₂ Equals) o p)
    {t u : Value → Bool} (htu : ∀ x y, x.Equals y → t x = u y) :
    (o.elim false fun items => items.any t) = p.elim false fun items => items.any u := by
  cases h with
  | none => rfl
  | some hitems => exact any_congr hitems htu

/-- **An operator answers the same for equal fields and equal operands.** -/
theorem holds_congr (op : Operator) {f g : Option Value} {a b : Value}
    (hf : Option.Rel Equals f g) (hab : a.Equals b) : op.holds f a = op.holds g b := by
  have hequals := fieldEquals_congr hf hab
  have hcompare := fieldCompare?_congr hf hab
  cases op with
  | eq => exact hequals
  | ne => exact congrArg (!·) hequals
  | gt => rw [holds, holds, hcompare]
  | gte => rw [holds, holds, hcompare]
  | lt => rw [holds, holds, hcompare]
  | lte => rw [holds, holds, hcompare]
  | isIn =>
    rw [holds_isIn, holds_isIn]
    exact any_items?_congr hab.rel_items? fun x y hxy => fieldEquals_congr hf hxy
  | contains =>
    have hitems := any_items?_congr (Value.rel_bind hf fun v w hvw => hvw.rel_items?)
      fun x y hxy => hxy.equal_congr hab
    show fieldContains f a = fieldContains g b
    rw [fieldContains_eq, fieldContains_eq, string?_congr hf, hab.string?_eq, hitems]
  | startsWith => rw [holds_startsWith, holds_startsWith, string?_congr hf, hab.string?_eq]
  | endsWith => rw [holds_endsWith, holds_endsWith, string?_congr hf, hab.string?_eq]

end Operator

/-! ## Clauses -/

namespace Clause

/-- What holds of the conditions, and of a clause when it holds of the clauses in it, holds of all
clauses. -/
@[elab_as_elim]
theorem induction {P : Clause → Prop} (condition : ∀ c, P (.condition c))
    (conj : ∀ cs, (∀ c ∈ cs, P c) → P (.conj cs)) (disj : ∀ cs, (∀ c ∈ cs, P c) → P (.disj cs))
    (neg : ∀ c, P c → P (.neg c)) (c : Clause) : P c := by
  cases c with
  | condition c => exact condition c
  | conj cs =>
    refine conj cs fun c hc => ?_
    have hlt := List.sizeOf_lt_of_mem hc
    exact induction condition conj disj neg c
  | disj cs =>
    refine disj cs fun c hc => ?_
    have hlt := List.sizeOf_lt_of_mem hc
    exact induction condition conj disj neg c
  | neg c => exact neg c (induction condition conj disj neg c)
termination_by sizeOf c

mutual

/-- Holds when two clauses have the same shape, fields and operators, and operands that are related
one by one. -/
def Related (R : Value → Value → Prop) : Clause → Clause → Prop
  | condition c, condition d => c.field = d.field ∧ c.operator = d.operator ∧ R c.operand d.operand
  | conj cs, conj ds => RelatedAll R cs ds
  | disj cs, disj ds => RelatedAll R cs ds
  | neg c, neg d => Related R c d
  | _, _ => False

/-- Holds when the clauses of two lists are related one by one. -/
def RelatedAll (R : Value → Value → Prop) : List Clause → List Clause → Prop
  | [], [] => True
  | c :: cs, d :: ds => Related R c d ∧ RelatedAll R cs ds
  | _, _ => False

end

theorem relatedAll_iff {R : Value → Value → Prop} {cs ds : List Clause} :
    RelatedAll R cs ds ↔ List.Forall₂ (Related R) cs ds := by
  induction cs generalizing ds with
  | nil => cases ds <;> simp [RelatedAll]
  | cons c cs ih =>
    cases ds with
    | nil => simp [RelatedAll]
    | cons d ds => rw [RelatedAll, ih, List.forall₂_cons]

theorem forall₂_of_relatedAll {R : Value → Value → Prop} {P : Clause → Clause → Prop}
    {cs ds : List Clause} (h : ∀ c ∈ cs, ∀ d, c.Related R d → P c d) (hcd : RelatedAll R cs ds) :
    List.Forall₂ P cs ds := by
  rw [relatedAll_iff] at hcd
  induction hcd with
  | nil => exact .nil
  | cons hcd _ ih =>
    rw [List.forall_mem_cons] at h
    exact .cons (h.1 _ hcd) (ih h.2)

/-- What holds of conditions that are related, and of two clauses when it holds of the clauses in
them one by one, holds of all clauses that are related. -/
@[elab_as_elim]
theorem Related.induction {R : Value → Value → Prop} {P : Clause → Clause → Prop}
    (condition : ∀ c d : Condition, c.field = d.field → c.operator = d.operator →
      R c.operand d.operand → P (.condition c) (.condition d))
    (conj : ∀ cs ds, List.Forall₂ P cs ds → P (.conj cs) (.conj ds))
    (disj : ∀ cs ds, List.Forall₂ P cs ds → P (.disj cs) (.disj ds))
    (neg : ∀ c d, P c d → P (.neg c) (.neg d)) {c d : Clause} (h : c.Related R d) : P c d := by
  induction c using Clause.induction generalizing d with
  | condition c =>
    cases d with
    | condition d => exact condition c d h.1 h.2.1 h.2.2
    | _ => exact absurd h (by simp [Related])
  | conj cs ih =>
    cases d with
    | conj ds => exact conj cs ds (forall₂_of_relatedAll (fun c hc d => ih c hc) h)
    | _ => exact absurd h (by simp [Related])
  | disj cs ih =>
    cases d with
    | disj ds => exact disj cs ds (forall₂_of_relatedAll (fun c hc d => ih c hc) h)
    | _ => exact absurd h (by simp [Related])
  | neg c ih =>
    cases d with
    | neg d => exact neg c d (ih h)
    | _ => exact absurd h (by simp [Related])

theorem Related.mono {R S : Value → Value → Prop} (hRS : ∀ a b, R a b → S a b) {c d : Clause}
    (h : c.Related R d) : c.Related S d := by
  refine Related.induction ?condition ?conj ?disj ?neg h
  case condition =>
    intro c d hfield hoperator hoperand
    exact ⟨hfield, hoperator, hRS _ _ hoperand⟩
  case conj => exact fun cs ds ih => relatedAll_iff.2 ih
  case disj => exact fun cs ds ih => relatedAll_iff.2 ih
  case neg => exact fun c d ih => ih

/-! ## Equal records -/

/-- Lists of clauses that agree one by one hold together. -/
theorem allHold_someHolds_congr {r s : Record} {cs ds : List Clause}
    (h : List.Forall₂ (fun c d => c.holds r = d.holds s) cs ds) :
    allHold r cs = allHold s ds ∧ someHolds r cs = someHolds s ds := by
  induction h with
  | nil => exact ⟨rfl, rfl⟩
  | cons hcd _ ih =>
    rw [allHold, allHold, someHolds, someHolds, hcd, ih.1, ih.2]
    exact ⟨rfl, rfl⟩

theorem holds_of_related {r s : Record} (hrs : (Value.map r).Equals (.map s)) {c d : Clause}
    (h : c.Related Value.Equals d) : c.holds r = d.holds s := by
  refine Related.induction ?condition ?conj ?disj ?neg h
  case condition =>
    intro c d hfield hoperator hoperand
    show c.operator.holds (r.lookup c.field) c.operand
      = d.operator.holds (s.lookup d.field) d.operand
    rw [hfield, hoperator]
    exact d.operator.holds_congr (Record.rel_lookup hrs d.field) hoperand
  case conj => exact fun cs ds ih => (allHold_someHolds_congr ih).1
  case disj => exact fun cs ds ih => (allHold_someHolds_congr ih).2
  case neg => exact fun c d ih => congrArg (!·) ih

end Clause

/-- Holds of well-formed values that differ in spelling only. -/
structure Value.Respells (a b : Value) : Prop where
  left : a.WellFormed
  right : b.WellFormed
  respelled : a.Respelled b

namespace Clause

/-- **A clause holds of equal records alike**, and so does a clause of the same shape with equal
operands.  In particular records and operands may be spelled in another way. -/
theorem holds_respects_equality :
    (∀ (c d : Clause) (r s : Record), c.Related Value.Equals d →
      (Value.map r).Equals (.map s) → c.holds r = d.holds s) ∧
    (∀ (c d : Clause) (r s : Record), c.Related Value.Respells d →
      (Value.map r).Respells (.map s) → c.holds r = d.holds s) := by
  have hequals : ∀ a b : Value, a.Respells b → a.Equals b :=
    fun a b h => Value.Equals.of_respelled h.left h.right h.respelled
  refine ⟨fun c d r s hcd hrs => holds_of_related hrs hcd, fun c d r s hcd hrs => ?_⟩
  exact holds_of_related (hequals _ _ hrs) (hcd.mono hequals)

/-- A record with a zero two maps deep. -/
def zeroRecord (zero : Number) : Record :=
  [("a", .map [("b", .num zero), ("c", .null)])]

/-- The same with the keys of the inner map in another order. -/
def turnedRecord (zero : Number) : Record :=
  [("a", .map [("c", .null), ("b", .num zero)])]

/-- A clause that asks for no positive value at the end of a path. -/
def notPositive (zero : Number) : Clause :=
  .neg (.condition ⟨"a.b", .gt, .num zero⟩)

/-- Zero may be written as minus zero, and the keys may change places. -/
theorem holds_respects_equality_minusZero :
    (notPositive (.float (.zero true))).holds (zeroRecord (.float (.zero true))) = true ∧
    (notPositive (.float (.zero true))).holds (turnedRecord (.float (.zero true))) = true := by
  obtain ⟨hequal, hrespelled⟩ := holds_respects_equality
  have hzero : (notPositive (.int 0)).holds (zeroRecord (.int 0)) = true := by decide +kernel
  have hrange : Number.InRange (.int 0) ∧ Number.InRange (.float (.zero true)) := by decide
  have hunits : Number.units (.int 0) = Number.units (.float (.zero true)) :=
    (zero_mul _).trans (Double.units_zero true).symm
  constructor
  · rw [← hequal (notPositive (.int 0)) _ (zeroRecord (.int 0)) _ ?_ ?_]
    · exact hzero
    · exact ⟨rfl, rfl, hrange.1, hrange.2, by decide +kernel⟩
    · refine ⟨?_, ?_, by decide +kernel⟩ <;>
        simp [zeroRecord, Value.WellFormed, Value.WellFormedMembers, Members.keys, hrange]
  · rw [← hrespelled (notPositive (.int 0)) _ (zeroRecord (.int 0)) _ ?_ ?_]
    · exact hzero
    · exact ⟨rfl, rfl, hrange.1, hrange.2, by rwa [Value.Respelled]⟩
    · refine ⟨?_, ?_, turnedRecord (.float (.zero true)), ?_, .refl _⟩
      · simp [zeroRecord, Value.WellFormed, Value.WellFormedMembers, Members.keys, hrange]
      · simp [turnedRecord, Value.WellFormed, Value.WellFormedMembers, Members.keys, hrange]
      · refine ⟨rfl, ⟨[("b", .num (.float (.zero true))), ("c", .null)], ?_, .swap _ _ _⟩, trivial⟩
        exact ⟨rfl, hunits, rfl, trivial, trivial⟩

end Clause

end Logbook
