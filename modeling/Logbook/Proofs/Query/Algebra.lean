import Logbook.Laws
import Logbook.Proofs.Query.Congruence

/-!
# The algebra of clauses

A filter may be rewritten as a Boolean formula may: the same records pass it.  The conditions in it
are read as letters, which stand for true or false, a conjunction holds when all of its clauses hold
and a disjunction when one of them does.  Two clauses that agree for every choice of the letters
cannot be told apart by any record, since a record does nothing but choose the letters.

The usual laws are collected in one relation, `Clause.Rewrites`.  They speak of lists of clauses of
any length, the empty one included, and they may be used anywhere in a clause and one after the other.

* `Clause.truth`, `Clause.Equivalent`: clauses as formulas.
* `Clause.holds_eq_truth`: a record chooses the letters.
* `Clause.Rewrites`, `Clause.Rewrites.equivalent`: the laws, and that they change no truth value.
* `Clause.holds_of_equivalent`: clauses that are equivalent as formulas keep the same records.
-/

namespace Logbook

namespace Clause

/-! ## Clauses as formulas -/

/-- The truth value of a clause when each condition is given one. -/
def truth (letters : Condition → Bool) : Clause → Bool
  | condition c => letters c
  | conj cs => cs.attach.all fun c => truth letters c.1
  | disj cs => cs.attach.any fun c => truth letters c.1
  | neg c => !truth letters c
termination_by c => sizeOf c
decreasing_by
  · have := List.sizeOf_lt_of_mem c.2
    simp only [conj.sizeOf_spec]
    omega
  · have := List.sizeOf_lt_of_mem c.2
    simp only [disj.sizeOf_spec]
    omega
  · simp only [neg.sizeOf_spec]
    omega

/-- Holds when two clauses have the same truth value, whatever is given to the conditions. -/
def Equivalent (a b : Clause) : Prop := ∀ letters, a.truth letters = b.truth letters

section Truth

variable (letters : Condition → Bool)

@[simp] theorem truth_condition (c : Condition) : (condition c).truth letters = letters c := by
  rw [truth]

@[simp] theorem truth_conj (cs : List Clause) :
    (conj cs).truth letters = cs.all (truth letters) := by
  rw [truth, List.all_subtype (g := truth letters) fun _ _ => rfl, List.unattach_attach]

@[simp] theorem truth_disj (cs : List Clause) :
    (disj cs).truth letters = cs.any (truth letters) := by
  rw [truth, List.any_subtype (g := truth letters) fun _ _ => rfl, List.unattach_attach]

@[simp] theorem truth_neg (c : Clause) : (neg c).truth letters = !c.truth letters := by
  rw [truth]

end Truth

/-! ## Records choose the letters -/

/-- **What a clause says of a record is its truth value** when each condition is given what it says
of the record. -/
theorem holds_eq_truth (record : Record) (c : Clause) :
    c.holds record = c.truth fun condition => condition.holds record := by
  induction c using Clause.induction with
  | condition c => rw [holds, truth_condition]
  | conj cs ih =>
    rw [holds, allHold_eq_all, truth_conj, Bool.eq_iff_iff, List.all_eq_true, List.all_eq_true]
    exact forall₂_congr fun c hc => by rw [ih c hc]
  | disj cs ih =>
    rw [holds, someHolds_eq_any, truth_disj, Bool.eq_iff_iff, List.any_eq_true, List.any_eq_true]
    exact exists_congr fun c => and_congr_right fun hc => by rw [ih c hc]
  | neg c ih => rw [holds, truth_neg, ih]

/-! ## The laws -/

/-- The laws by which a clause may be rewritten, anywhere in it and any number of times. -/
inductive Rewrites : Clause → Clause → Prop where
  | refl (c : Clause) : Rewrites c c
  | symm {a b : Clause} : Rewrites a b → Rewrites b a
  | trans {a b c : Clause} : Rewrites a b → Rewrites b c → Rewrites a c
  /-- A double negation is none. -/
  | neg_neg (c : Clause) : Rewrites (neg (neg c)) c
  /-- The negation of a conjunction is the disjunction of the negations. -/
  | neg_conj (cs : List Clause) : Rewrites (neg (conj cs)) (disj (cs.map neg))
  /-- The negation of a disjunction is the conjunction of the negations. -/
  | neg_disj (cs : List Clause) : Rewrites (neg (disj cs)) (conj (cs.map neg))
  /-- Conjunction is distributed over disjunction. -/
  | conj_disj (before cs after : List Clause) :
      Rewrites (conj (before ++ disj cs :: after))
        (disj (cs.map fun c => conj (before ++ c :: after)))
  /-- Disjunction is distributed over conjunction. -/
  | disj_conj (before cs after : List Clause) :
      Rewrites (disj (before ++ conj cs :: after))
        (conj (cs.map fun c => disj (before ++ c :: after)))
  /-- A conjunction in a conjunction is flattened. -/
  | conj_conj (before cs after : List Clause) :
      Rewrites (conj (before ++ conj cs :: after)) (conj (before ++ cs ++ after))
  /-- A disjunction in a disjunction is flattened. -/
  | disj_disj (before cs after : List Clause) :
      Rewrites (disj (before ++ disj cs :: after)) (disj (before ++ cs ++ after))
  /-- The order of the clauses and their repetition do not matter. -/
  | conj_same {cs ds : List Clause} : (∀ c, c ∈ cs ↔ c ∈ ds) → Rewrites (conj cs) (conj ds)
  | disj_same {cs ds : List Clause} : (∀ c, c ∈ cs ↔ c ∈ ds) → Rewrites (disj cs) (disj ds)
  /-- The laws may be used inside of a clause. -/
  | under_conj (before after : List Clause) {a b : Clause} : Rewrites a b →
      Rewrites (conj (before ++ a :: after)) (conj (before ++ b :: after))
  | under_disj (before after : List Clause) {a b : Clause} : Rewrites a b →
      Rewrites (disj (before ++ a :: after)) (disj (before ++ b :: after))
  | under_neg {a b : Clause} : Rewrites a b → Rewrites (neg a) (neg b)

section Laws

variable {α : Type}

theorem any_and_and (p q : Bool) (f : α → Bool) (xs : List α) :
    (xs.any fun x => p && (f x && q)) = (p && (xs.any f && q)) := by
  cases p <;> cases q <;> simp

theorem all_or_or (p q : Bool) (f : α → Bool) (xs : List α) :
    (xs.all fun x => p || (f x || q)) = (p || (xs.all f || q)) := by
  cases p <;> cases q <;> simp

theorem all_eq_of_same {xs ys : List α} (h : ∀ x, x ∈ xs ↔ x ∈ ys) (f : α → Bool) :
    xs.all f = ys.all f := by
  rw [Bool.eq_iff_iff, List.all_eq_true, List.all_eq_true]
  exact forall_congr' fun x => imp_congr_left (h x)

theorem any_eq_of_same {xs ys : List α} (h : ∀ x, x ∈ xs ↔ x ∈ ys) (f : α → Bool) :
    xs.any f = ys.any f := by
  rw [Bool.eq_iff_iff, List.any_eq_true, List.any_eq_true]
  exact exists_congr fun x => and_congr_left fun _ => h x

end Laws

/-- **The laws change no truth value.** -/
theorem Rewrites.equivalent {a b : Clause} (h : a.Rewrites b) : a.Equivalent b := by
  intro letters
  induction h with
  | refl c => rfl
  | symm _ ih => exact ih.symm
  | trans _ _ hab hbc => exact hab.trans hbc
  | neg_neg c => rw [truth_neg, truth_neg, Bool.not_not]
  | neg_conj cs =>
    rw [truth_neg, truth_conj, truth_disj, List.any_map, List.not_all_eq_any_not]
    exact congrArg cs.any (funext fun c => (truth_neg letters c).symm)
  | neg_disj cs =>
    rw [truth_neg, truth_conj, truth_disj, List.all_map, List.not_any_eq_all_not]
    exact congrArg cs.all (funext fun c => (truth_neg letters c).symm)
  | conj_disj before cs after =>
    simp only [truth_conj, truth_disj, List.all_append, List.all_cons, List.any_map,
      Function.comp_def, any_and_and]
  | disj_conj before cs after =>
    simp only [truth_conj, truth_disj, List.any_append, List.any_cons, List.all_map,
      Function.comp_def, all_or_or]
  | conj_conj before cs after =>
    simp only [truth_conj, List.all_append, List.all_cons, Bool.and_assoc]
  | disj_disj before cs after =>
    simp only [truth_disj, List.any_append, List.any_cons, Bool.or_assoc]
  | conj_same h => rw [truth_conj, truth_conj, all_eq_of_same h]
  | disj_same h => rw [truth_disj, truth_disj, any_eq_of_same h]
  | under_conj before after _ ih =>
    simp only [truth_conj, List.all_append, List.all_cons, ih]
  | under_disj before after _ ih =>
    simp only [truth_disj, List.any_append, List.any_cons, ih]
  | under_neg _ ih => rw [truth_neg, truth_neg, ih]

/-! ## What a filter keeps -/

/-- Clauses that are equivalent as formulas hold of the same records. -/
theorem Equivalent.holds_eq {a b : Clause} (h : a.Equivalent b) (record : Record) :
    a.holds record = b.holds record := by
  rw [holds_eq_truth, holds_eq_truth, h]

theorem clauseAlgebra_eq_true (a b : Clause) (record : Record) :
    Law.clauseAlgebra a b record = true := by
  have hdisj := (Rewrites.neg_disj [a, b]).equivalent.holds_eq record
  have hneg := (Rewrites.neg_neg a).equivalent.holds_eq record
  rw [Law.clauseAlgebra, hdisj, hneg]
  simp [holds, allHold, someHolds]

/-- A clause and its negation keep every record between them, each of them once. -/
theorem select_neg_perm (c : Clause) (records : List Record) :
    (select (some c) records ++ select (some (neg c)) records).Perm records := by
  have hneg : select (some (neg c)) records = records.filter fun r => !c.holds r := by
    rw [select]
    exact List.filter_congr fun r _ => by rw [holds]
  rw [hneg]
  exact List.filter_append_perm _ records

/-- **Clauses that are equivalent as formulas keep the same records**, and clauses that come from each
other by the laws are equivalent.  The laws at work hold of all clauses and records, and a clause and
its negation split every list of records in two. -/
theorem holds_of_equivalent :
    (∀ a b : Clause, a.Equivalent b →
      (∀ record, a.holds record = b.holds record) ∧
      ∀ records, select (some a) records = select (some b) records) ∧
    (∀ a b : Clause, a.Rewrites b → a.Equivalent b) ∧
    (∀ a b record, Law.clauseAlgebra a b record = true) ∧
    ∀ (c : Clause) (records : List Record),
      let kept := select (some c) records
      let dropped := select (some (neg c)) records
      (kept ++ dropped).Perm records ∧ kept.Sublist records ∧ dropped.Sublist records ∧
        ∀ r ∈ kept, r ∉ dropped := by
  refine ⟨?_, ?_, clauseAlgebra_eq_true, ?_⟩
  · intro a b h
    refine ⟨h.holds_eq, fun records => ?_⟩
    exact List.filter_congr fun r _ => h.holds_eq r
  · intro a b h
    exact h.equivalent
  · intro c records kept dropped
    refine ⟨select_neg_perm c records, List.filter_sublist, List.filter_sublist, ?_⟩
    intro r hkept hdropped
    have hholds : c.holds r = true := (List.mem_filter.1 hkept).2
    have hneg : (neg c).holds r = true := (List.mem_filter.1 hdropped).2
    rw [holds, hholds] at hneg
    exact absurd hneg (by simp)

/-- Asks for errors. -/
def isError : Clause := .condition ⟨"level", .eq, .str "error"⟩

/-- Asks for requests that took long. -/
def isSlow : Clause := .condition ⟨"took", .gt, .num (.int 9)⟩

/-- A slow error, a fast one, and two records that are no errors. -/
def requests : List Record :=
  [[("level", .str "error"), ("took", .num (.int 12))], [("level", .str "error")],
    [("level", .str "info"), ("took", .num (.int 12))], []]

/-- A nested clause is turned inside out by the laws, and what comes out absorbs one of its parts. -/
theorem holds_of_equivalent_requests :
    (neg (conj [isError, disj [neg isSlow, isError]])).Equivalent (neg isError) ∧
    select (some (neg (conj [isError, disj [neg isSlow, isError]]))) requests
      = [[("level", .str "info"), ("took", .num (.int 12))], []] := by
  obtain ⟨hselect, hlaws, -⟩ := holds_of_equivalent
  have hrewrites : (neg (conj [isError, disj [neg isSlow, isError]])).Rewrites
      (disj [neg isError, conj [neg (neg isSlow), neg isError]]) :=
    .trans (.neg_conj _) (.under_disj [neg isError] [] (.neg_disj _))
  have habsorbed : (disj [neg isError, conj [neg (neg isSlow), neg isError]]).Equivalent
      (neg isError) := by
    intro letters
    simp only [isError, isSlow, truth_disj, truth_conj, truth_neg, truth_condition, List.any_cons,
      List.any_nil, List.all_cons, List.all_nil]
    cases letters ⟨"level", .eq, .str "error"⟩ <;> simp
  have hequivalent : (neg (conj [isError, disj [neg isSlow, isError]])).Equivalent (neg isError) :=
    fun letters => (hlaws _ _ hrewrites letters).trans (habsorbed letters)
  refine ⟨hequivalent, ?_⟩
  rw [(hselect _ _ hequivalent).2]
  rfl

end Clause

end Logbook
