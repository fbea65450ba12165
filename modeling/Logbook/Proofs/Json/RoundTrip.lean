import Logbook.Json.Reader
import Logbook.Proofs.Json.Tokens
import Logbook.Proofs.Value.Members

/-!
# Reading undoes writing

A well-formed value that is not nested too deeply is read back from its compact text, with what
followed it left over.  The statement that goes through by induction speaks of a reader that already
holds open lists and maps: reading the text of a value brings it to where that value has been put.

The limit on nesting is a variable here.  No value exceeds every limit, so two values with the same
text are the same, however deep they are.

* `Json.State.run_write`: reading the text of a value with lists and maps open.
* `Value.first?_write`, `Value.ofText?_text`: a value is read back.
* `Value.text_injective`: a text belongs to one value.
-/

namespace Logbook

namespace Json

variable {limit : ℕ}

/-- Reads on after a token. -/
def Outcome.resume (limit : ℕ) : Outcome → List Char → Option (Value × List Char)
  | .refused, _ => none
  | .finished v, rest => some (v, rest)
  | .next state, rest => state.run limit rest

namespace State

theorem run_of_next? {state : State} {cs rest : List Char} {t : Token}
    (h : Token.next? cs = some (t, rest)) :
    state.run limit cs = (state.step limit t).resume limit rest := by
  rw [run]
  split
  · rename_i hn
    rw [h] at hn
    exact absurd hn (by simp)
  · rename_i t' rest' hn
    rw [h] at hn
    obtain ⟨rfl, rfl⟩ := Prod.mk.inj (Option.some.inj hn)
    cases state.step limit t <;> rfl

end State

namespace Token

theorem stops_writeItems (xs : List Value) (tail : List Char) :
    Stops (Value.writeItems xs tail) := by
  cases xs with
  | nil =>
    rw [Value.writeItems]
    exact stops_cons (by decide) _
  | cons x xs =>
    rw [Value.writeItems]
    exact stops_cons (by decide) _

theorem stops_writeMembers (ms : Members) (tail : List Char) :
    Stops (Value.writeMembers ms tail) := by
  cases ms with
  | nil =>
    rw [Value.writeMembers]
    exact stops_cons (by decide) _
  | cons m ms =>
    rw [Value.writeMembers]
    exact stops_cons (by decide) _

/-- The text of a value starts with a token, and it is none that closes a list. -/
theorem exists_next?_write {v : Value} (hv : v.WellFormed) {tail : List Char} (htail : Stops tail) :
    ∃ t rest, next? (v.write tail) = some (t, rest) ∧ t ≠ .closeList := by
  cases v with
  | null => exact ⟨_, _, rfl, Token.noConfusion⟩
  | bool b => cases b <;> exact ⟨_, _, rfl, Token.noConfusion⟩
  | num n => exact ⟨_, _, next?_chars hv htail, Token.noConfusion⟩
  | str s => exact ⟨_, _, next?_writeString s tail, Token.noConfusion⟩
  | list xs => cases xs <;> exact ⟨_, _, rfl, Token.noConfusion⟩
  | map ms => cases ms <;> exact ⟨_, _, rfl, Token.noConfusion⟩

end Token

namespace State

theorem step_firstItem {t : Token} (ht : t ≠ .closeList) (stack : List Frame) :
    (firstItem stack).step limit t = (value (.item [] :: stack)).step limit t := by
  cases t <;> first | rfl | exact absurd rfl ht

/-- A list that has just been opened reads its first item like any other value. -/
theorem run_firstItem {v : Value} (hv : v.WellFormed) {tail : List Char}
    (htail : Token.Stops tail) (stack : List Frame) :
    (firstItem stack).run limit (v.write tail)
      = (value (.item [] :: stack)).run limit (v.write tail) := by
  obtain ⟨t, rest, hnext, ht⟩ := Token.exists_next?_write hv htail
  rw [run_of_next? hnext, run_of_next? hnext, step_firstItem ht]

theorem run_openList {stack : List Frame} (h : stack.length < limit) (rest : List Char) :
    (value stack).run limit ('[' :: rest) = (firstItem stack).run limit rest := by
  have hnext : Token.next? ('[' :: rest) = some (.openList, rest) := rfl
  rw [run_of_next? hnext, step, startValue, if_pos h]
  rfl

theorem run_openMap {stack : List Frame} (h : stack.length < limit) (rest : List Char) :
    (value stack).run limit ('{' :: rest) = (firstKey stack).run limit rest := by
  have hnext : Token.next? ('{' :: rest) = some (.openMap, rest) := rfl
  rw [run_of_next? hnext, step, startValue, if_pos h]
  rfl

/-- A key and its colon make room for the value. -/
theorem run_key {state : State} {done : Members} {k : String} {stack : List Frame}
    (h : state.step limit (.string k) = .next (colon done k stack)) (rest : List Char) :
    state.run limit (writeString k (':' :: rest))
      = (value (.member done k :: stack)).run limit rest := by
  have hcolon : Token.next? (':' :: rest) = some (.colon, rest) := rfl
  rw [run_of_next? (Token.next?_writeString k _), h, Outcome.resume, run_of_next? hcolon]
  rfl

end State

namespace State

mutual

/-- Reading the text of a value brings the reader to where the value has been put. -/
theorem run_write : ∀ (v : Value) (stack : List Frame) (tail : List Char), v.WellFormed →
    stack.length + v.depth ≤ limit → Token.Stops tail →
    (value stack).run limit (v.write tail) = (place v stack).resume limit tail
  | .null, stack, tail, _, _, _ => by
    have hnext : Token.next? (Value.null.write tail) = some (.scalar .null, tail) := rfl
    rw [run_of_next? hnext]
    rfl
  | .bool true, stack, tail, _, _, _ => by
    have hnext : Token.next? ((Value.bool true).write tail)
        = some (.scalar (.bool true), tail) := rfl
    rw [run_of_next? hnext]
    rfl
  | .bool false, stack, tail, _, _, _ => by
    have hnext : Token.next? ((Value.bool false).write tail)
        = some (.scalar (.bool false), tail) := rfl
    rw [run_of_next? hnext]
    rfl
  | .num n, stack, tail, hv, _, htail => by
    rw [Value.write, run_of_next? (Token.next?_chars hv htail)]
    rfl
  | .str s, stack, tail, _, _, _ => by
    rw [Value.write, run_of_next? (Token.next?_writeString s tail)]
    rfl
  | .list [], stack, tail, _, hdepth, _ => by
    have hnext : Token.next? (']' :: tail) = some (.closeList, tail) := rfl
    rw [Value.depth] at hdepth
    rw [Value.write, run_openList (by omega), run_of_next? hnext]
    rfl
  | .list (x :: xs), stack, tail, hv, hdepth, _ => by
    rw [Value.WellFormed, Value.WellFormedItems] at hv
    rw [Value.depth, Value.depthOfItems] at hdepth
    have hstops := Token.stops_writeItems xs tail
    rw [Value.write, run_openList (by omega), run_firstItem hv.1 hstops,
      run_write x _ _ hv.1 (by rw [List.length_cons]; omega) hstops]
    exact run_writeItems xs [x] stack tail hv.2 (by omega)
  | .map [], stack, tail, _, hdepth, _ => by
    have hnext : Token.next? ('}' :: tail) = some (.closeMap, tail) := rfl
    rw [Value.depth] at hdepth
    rw [Value.write, run_openMap (by omega), run_of_next? hnext]
    rfl
  | .map ((k, v) :: ms), stack, tail, hv, hdepth, _ => by
    rw [Value.WellFormed, Value.WellFormedMembers] at hv
    rw [Value.depth, Value.depthOfMembers] at hdepth
    rw [Value.write, run_openMap (by omega), run_key rfl,
      run_write v _ _ hv.2.1 (by rw [List.length_cons]; omega) (Token.stops_writeMembers ms tail)]
    exact run_writeMembers ms [(k, v)] stack tail hv.1 hv.2.2 (by omega)

/-- Reading on after an item brings the reader to where the list has been put. -/
theorem run_writeItems : ∀ (xs done : List Value) (stack : List Frame) (tail : List Char),
    Value.WellFormedItems xs → stack.length + 1 + Value.depthOfItems xs ≤ limit →
    (afterItem done stack).run limit (Value.writeItems xs tail)
      = (place (.list (done.reverse ++ xs)) stack).resume limit tail
  | [], done, stack, tail, _, _ => by
    have hnext : Token.next? (']' :: tail) = some (.closeList, tail) := rfl
    rw [Value.writeItems, run_of_next? hnext, List.append_nil]
    rfl
  | x :: xs, done, stack, tail, hxs, hdepth => by
    have hnext : Token.next? (',' :: x.write (Value.writeItems xs tail))
      = some (.comma, x.write (Value.writeItems xs tail)) := rfl
    rw [Value.WellFormedItems] at hxs
    rw [Value.depthOfItems] at hdepth
    rw [Value.writeItems, run_of_next? hnext]
    refine (run_write x (.item done :: stack) _ hxs.1 (by rw [List.length_cons]; omega)
      (Token.stops_writeItems xs tail)).trans ?_
    refine (run_writeItems xs (x :: done) stack tail hxs.2 (by omega)).trans ?_
    rw [List.reverse_cons, List.append_assoc, List.singleton_append]

/-- Reading on after a member brings the reader to where the map has been put. -/
theorem run_writeMembers : ∀ (ms done : Members) (stack : List Frame) (tail : List Char),
    (Members.keys (done ++ ms)).Nodup → Value.WellFormedMembers ms →
    stack.length + 1 + Value.depthOfMembers ms ≤ limit →
    (afterMember done stack).run limit (Value.writeMembers ms tail)
      = (place (.map (done ++ ms)) stack).resume limit tail
  | [], done, stack, tail, _, _, _ => by
    have hnext : Token.next? ('}' :: tail) = some (.closeMap, tail) := rfl
    rw [Value.writeMembers, run_of_next? hnext, List.append_nil]
    rfl
  | (k, v) :: ms, done, stack, tail, hkeys, hms, hdepth => by
    have hnext : Token.next? (',' :: writeString k (':' :: v.write (Value.writeMembers ms tail)))
      = some (.comma, writeString k (':' :: v.write (Value.writeMembers ms tail))) := rfl
    have hsplit : done ++ (k, v) :: ms = done ++ [(k, v)] ++ ms := List.append_cons done (k, v) ms
    have hk : k ∉ Members.keys done := by
      rw [Members.keys, List.map_append, List.map_cons] at hkeys
      exact fun h => (List.nodup_append.1 hkeys).2.2 k h k List.mem_cons_self rfl
    rw [Value.WellFormedMembers] at hms
    rw [Value.depthOfMembers] at hdepth
    rw [Value.writeMembers, run_of_next? hnext]
    refine (run_key rfl _).trans ?_
    refine (run_write v (.member done k :: stack) _ hms.1 (by rw [List.length_cons]; omega)
      (Token.stops_writeMembers ms tail)).trans ?_
    rw [hsplit] at hkeys ⊢
    rw [place, Members.insert_of_not_mem v hk]
    exact run_writeMembers ms (done ++ [(k, v)]) stack tail hkeys hms.2 (by omega)

end

end State

end Json

namespace Value

open Json

/-! ## Whole values -/

/-- A value is read from the front of its text, whatever the limit that it keeps to. -/
theorem run_write {v : Value} (hv : v.WellFormed) {limit : ℕ} (hdepth : v.depth ≤ limit)
    {tail : List Char} (htail : Token.Stops tail) :
    (State.value []).run limit (v.write tail) = some (v, tail) :=
  State.run_write v [] tail hv (by rw [List.length_nil]; omega) htail

theorem first?_write {v : Value} (hv : v.WellFormed) (hdepth : v.depth ≤ maxDepth)
    {tail : List Char} (htail : Token.Stops tail) : first? (v.write tail) = some (v, tail) :=
  run_write hv hdepth htail

/-- A value is read back from its text. -/
theorem ofText?_text {v : Value} (hv : v.WellFormed) (hdepth : v.depth ≤ maxDepth) :
    ofText? v.text = some v := by
  rw [ofText?, text, String.toList_ofList, read?, first?_write hv hdepth Token.stops_nil]
  rfl

/-- A text belongs to one value only, however deep. -/
theorem text_injective {v w : Value} (hv : v.WellFormed) (hw : w.WellFormed)
    (h : v.text = w.text) : v = w := by
  have hlists := congrArg String.toList h
  rw [text, text, String.toList_ofList, String.toList_ofList] at hlists
  have hreadv := run_write hv (le_max_left v.depth w.depth) Token.stops_nil
  have hreadw := run_write hw (le_max_right v.depth w.depth) Token.stops_nil
  rw [hlists, hreadw] at hreadv
  exact (congrArg Prod.fst (Option.some.inj hreadv)).symm

end Value

end Logbook
