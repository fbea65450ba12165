import Mathlib.Data.List.Basic
import Logbook.Json.Reader
import Logbook.Proofs.Json.RoundTrip
import Logbook.Proofs.Value.Members

/-!
# What the reader gives

Whatever text it is given, the reader gives values that can be written: integers fit 64 bits, no map
has a key twice, and lists and maps nest no deeper than the limit.  This is an invariant of the
reader.  What it holds in its open lists and maps has these properties already, and a value that
stands in `n` of them may nest `n` levels less than the limit.

A reader with a higher limit reads what one with a lower limit reads, and reads it as the same value.
So a text of a value that nests too deep is not read as another value: it is not read at all.

* `Json.Token.Sound`: what holds of the tokens of a text.
* `Json.State.Sound`, `Json.State.step_sound`: the invariant, and that a token keeps it.
* `Value.first?_sound`: the values at the front of a text.
* `Json.State.run_of_le`: a higher limit.
* `Value.ofText?_text_eq_some_iff`: when a value is read back from its text.
-/

namespace Logbook

/-! ## Depth -/

namespace Value

theorem depthOfItems_le_iff {n : ℕ} :
    ∀ {xs : List Value}, depthOfItems xs ≤ n ↔ ∀ x ∈ xs, x.depth ≤ n
  | [] => ⟨fun _ x hx => absurd hx List.not_mem_nil, fun _ => Nat.zero_le n⟩
  | x :: xs => by
    rw [depthOfItems, Nat.max_le, depthOfItems_le_iff, List.forall_mem_cons]

theorem depthOfMembers_le_iff {n : ℕ} :
    ∀ {ms : Members}, depthOfMembers ms ≤ n ↔ ∀ m ∈ ms, m.2.depth ≤ n
  | [] => ⟨fun _ m hm => absurd hm List.not_mem_nil, fun _ => Nat.zero_le n⟩
  | (k, v) :: ms => by
    rw [depthOfMembers, Nat.max_le, depthOfMembers_le_iff, List.forall_mem_cons]

end Value

/-! ## Tokens -/

/-- A written integer fits 64 bits, or it is read as a double. -/
theorem Number.inRange_of_ofNumeral? {numeral : Numeral} {n : Number}
    (h : ofNumeral? numeral = some n) : n.InRange := by
  unfold ofNumeral? at h
  dsimp only at h
  split at h
  · rename_i hfits
    rw [← Option.some.inj h, InRange, Double.wordFloor]
    exact ⟨by omega, hfits.2.2⟩
  · split at h
    · rename_i hfits
      rw [← Option.some.inj h, InRange, Double.wordCeil]
      exact ⟨hfits.2.2.2, by omega⟩
    · obtain ⟨x, -, rfl⟩ := Option.map_eq_some_iff.1 h
      exact trivial

namespace Json

/-- Holds of the tokens of a text: a scalar is no list and no map, and its integer fits. -/
def Token.Sound : Token → Prop
  | .scalar v => v.WellFormed ∧ v.depth = 0
  | _ => True

theorem Token.sound_of_first? {cs rest : List Char} {t : Token} (h : first? cs = some (t, rest)) :
    t.Sound := by
  unfold first? at h
  split at h
  case h_1 => exact absurd h (by simp)
  case h_8 =>
    obtain ⟨⟨s, _⟩, _, hs⟩ := Option.map_eq_some_iff.1 h
    rw [← (Prod.mk.inj hs).1]
    exact trivial
  case h_12 =>
    obtain ⟨⟨n, _⟩, hn, hs⟩ := Option.map_eq_some_iff.1 h
    rw [← (Prod.mk.inj hs).1]
    refine ⟨?_, rfl⟩
    unfold number? at hn
    dsimp only at hn
    split at hn
    · exact absurd hn (by simp)
    · obtain ⟨n', hn', hpair⟩ := Option.map_eq_some_iff.1 hn
      rw [← (Prod.mk.inj hpair).1]
      exact Number.inRange_of_ofNumeral? hn'
  all_goals
    rw [← (Prod.mk.inj (Option.some.inj h)).1]
    first | exact trivial | exact ⟨trivial, rfl⟩

theorem Token.sound_of_next? {cs rest : List Char} {t : Token} (h : next? cs = some (t, rest)) :
    t.Sound :=
  sound_of_first? h

/-! ## The invariant -/

variable {limit : ℕ}

/-- Holds of a value that may stand in `n` open lists and maps. -/
def Allowed (limit n : ℕ) (v : Value) : Prop := v.WellFormed ∧ n + v.depth ≤ limit

/-- What holds of the open lists and maps. -/
def Sound (limit : ℕ) : List Frame → Prop
  | [] => True
  | .item done :: stack =>
    stack.length < limit ∧ (∀ v ∈ done, Allowed limit (stack.length + 1) v) ∧ Sound limit stack
  | .member done _ :: stack =>
    stack.length < limit ∧ (Members.keys done).Nodup ∧
      (∀ m ∈ done, Allowed limit (stack.length + 1) m.2) ∧ Sound limit stack

/-- What holds of the reader at any time. -/
def State.Sound (limit : ℕ) : State → Prop
  | .value stack => Json.Sound limit stack
  | .firstItem stack => Json.Sound limit (.item [] :: stack)
  | .firstKey stack => Json.Sound limit (.member [] "" :: stack)
  | .afterItem done stack => Json.Sound limit (.item done :: stack)
  | .afterMember done stack => Json.Sound limit (.member done "" :: stack)
  | .key done stack => Json.Sound limit (.member done "" :: stack)
  | .colon done k stack => Json.Sound limit (.member done k :: stack)

/-- What holds of that which comes of a token. -/
def Outcome.Sound (limit : ℕ) : Outcome → Prop
  | .refused => True
  | .finished v => Allowed limit 0 v
  | .next state => state.Sound limit

theorem place_sound {v : Value} : ∀ {stack : List Frame}, Allowed limit stack.length v →
    Sound limit stack → (place v stack).Sound limit
  | [], hv, _ => hv
  | .item done :: stack, hv, ⟨hlt, hdone, hstack⟩ =>
    ⟨hlt, List.forall_mem_cons.2 ⟨hv, hdone⟩, hstack⟩
  | .member done key :: stack, hv, ⟨hlt, hkeys, hdone, hstack⟩ => by
    refine ⟨hlt, Members.nodup_keys_insert key v hkeys, fun m hm => ?_, hstack⟩
    rcases Members.mem_insert hm with h | h
    · exact h.symm ▸ hv
    · exact hdone m h

/-- A list that is closed may stand where it was opened. -/
theorem allowed_list {done : List Value} {stack : List Frame}
    (h : Sound limit (.item done :: stack)) : Allowed limit stack.length (.list done.reverse) := by
  obtain ⟨hlt, hdone, -⟩ := h
  have hdepth : Value.depthOfItems done.reverse ≤ limit - (stack.length + 1) :=
    Value.depthOfItems_le_iff.2 fun v hv => by
      have hle := (hdone v (List.mem_reverse.1 hv)).2
      omega
  refine ⟨?_, ?_⟩
  · rw [Value.WellFormed, Value.wellFormedItems_iff]
    exact fun v hv => (hdone v (List.mem_reverse.1 hv)).1
  · rw [Value.depth]
    omega

/-- A map that is closed may stand where it was opened. -/
theorem allowed_map {done : Members} (key : String) {stack : List Frame}
    (h : Sound limit (.member done key :: stack)) : Allowed limit stack.length (.map done) := by
  obtain ⟨hlt, hkeys, hdone, -⟩ := h
  have hdepth : Value.depthOfMembers done ≤ limit - (stack.length + 1) :=
    Value.depthOfMembers_le_iff.2 fun m hm => by
      have hle := (hdone m hm).2
      omega
  refine ⟨?_, ?_⟩
  · rw [Value.WellFormed, Value.wellFormedMembers_iff]
    exact ⟨hkeys, fun m hm => (hdone m hm).1⟩
  · rw [Value.depth]
    omega

theorem Sound.tail {frame : Frame} {stack : List Frame} (h : Sound limit (frame :: stack)) :
    Sound limit stack := by
  cases frame with
  | item done => exact h.2.2
  | member done key => exact h.2.2.2

theorem startValue_sound {stack : List Frame} {t : Token} (hstack : Sound limit stack)
    (hle : stack.length ≤ limit) (ht : t.Sound) : (startValue limit stack t).Sound limit := by
  cases t with
  | openList =>
    rw [startValue]
    split
    · rename_i hlt
      exact ⟨hlt, fun v hv => absurd hv List.not_mem_nil, hstack⟩
    · exact trivial
  | openMap =>
    rw [startValue]
    split
    · rename_i hlt
      exact ⟨hlt, List.nodup_nil, fun m hm => absurd hm List.not_mem_nil, hstack⟩
    · exact trivial
  | string s => exact place_sound ⟨trivial, hle⟩ hstack
  | scalar v => exact place_sound ⟨ht.1, by rw [ht.2]; exact hle⟩ hstack
  | _ => exact trivial

theorem Sound.length_le : ∀ {stack : List Frame}, Sound limit stack → stack.length ≤ limit
  | [], _ => Nat.zero_le limit
  | .item _ :: _, h => h.1
  | .member _ _ :: _, h => h.1

/-- **A token keeps the invariant.** -/
theorem State.step_sound {state : State} {t : Token} (h : state.Sound limit) (ht : t.Sound) :
    (state.step limit t).Sound limit := by
  unfold State.step
  split
  · exact startValue_sound h h.length_le ht
  · exact place_sound (allowed_list h) h.tail
  · exact startValue_sound h h.length_le ht
  · exact place_sound (allowed_map "" h) h.tail
  · exact h
  · exact h
  · exact place_sound (allowed_list h) h.tail
  · exact h
  · exact place_sound (allowed_map "" h) h.tail
  · exact h
  · exact h
  · exact trivial

/-- What is read from a state of the invariant is well formed and nests no deeper than the limit. -/
theorem State.run_sound {state : State} {cs rest : List Char} {v : Value}
    (hstate : state.Sound limit) (h : state.run limit cs = some (v, rest)) : Allowed limit 0 v := by
  fun_induction State.run limit state cs with
  | case1 => exact absurd h (by simp)
  | case2 => exact absurd h (by simp)
  | case3 state cs t rest' hnext v' hstep =>
    have hout := step_sound hstate (Token.sound_of_next? hnext)
    rw [hstep] at hout
    rw [← (Prod.mk.inj (Option.some.inj h)).1]
    exact hout
  | case4 state cs t rest' hnext state' hstep ih =>
    have hout := step_sound hstate (Token.sound_of_next? hnext)
    rw [hstep] at hout
    exact ih hout h

/-! ## A higher limit -/

section Limits

variable {lower higher : ℕ} (h : lower ≤ higher)
include h

theorem startValue_of_le {stack : List Frame} {t : Token}
    (hread : startValue lower stack t ≠ .refused) :
    startValue higher stack t = startValue lower stack t := by
  cases t with
  | openList =>
    rw [startValue] at hread ⊢
    split at hread
    · rename_i hlt
      rw [startValue, if_pos hlt, if_pos (hlt.trans_le h)]
    · exact absurd rfl hread
  | openMap =>
    rw [startValue] at hread ⊢
    split at hread
    · rename_i hlt
      rw [startValue, if_pos hlt, if_pos (hlt.trans_le h)]
    · exact absurd rfl hread
  | _ => rfl

/-- A token that a reader takes is taken alike by a reader with a higher limit. -/
theorem State.step_of_le {state : State} {t : Token} (hread : state.step lower t ≠ .refused) :
    state.step higher t = state.step lower t := by
  unfold State.step at hread ⊢
  split
  · exact startValue_of_le h hread
  · rfl
  · exact startValue_of_le h (by simpa using hread)
  all_goals rfl

theorem State.run_of_le {state : State} {cs : List Char} {found : Value × List Char}
    (hread : state.run lower cs = some found) : state.run higher cs = some found := by
  fun_induction State.run lower state cs with
  | case1 => exact absurd hread (by simp)
  | case2 => exact absurd hread (by simp)
  | case3 state cs t rest hnext v hstep =>
    rw [run_of_next? hnext, step_of_le h (by rw [hstep]; simp), hstep]
    exact hread
  | case4 state cs t rest hnext state' hstep ih =>
    rw [run_of_next? hnext, step_of_le h (by rw [hstep]; simp), hstep]
    exact ih hread

end Limits

end Json

/-- **A value that was read from a text can be written.** -/
theorem Value.first?_sound {cs rest : List Char} {v : Value} (h : first? cs = some (v, rest)) :
    v.WellFormed ∧ v.depth ≤ Json.maxDepth := by
  have hstart : (Json.State.value []).Sound Json.maxDepth := trivial
  have hallowed := Json.State.run_sound hstart h
  exact ⟨hallowed.1, by simpa using hallowed.2⟩

/-- **A value is read back from its text just when it does not nest too deep.** -/
theorem Value.ofText?_text_eq_some_iff {v w : Value} (hv : v.WellFormed) :
    ofText? v.text = some w ↔ v = w ∧ v.depth ≤ Json.maxDepth := by
  constructor
  · intro h
    rw [ofText?, text, String.toList_ofList, read?] at h
    split at h
    · rename_i u rest hfirst
      have hsame := Json.State.run_of_le (le_max_left Json.maxDepth v.depth) hfirst
      rw [run_write hv (le_max_right Json.maxDepth v.depth) Json.Token.stops_nil] at hsame
      obtain ⟨rfl, rfl⟩ := Prod.mk.inj (Option.some.inj hsame)
      rw [if_pos (by rfl)] at h
      exact ⟨Option.some.inj h, (first?_sound hfirst).2⟩
    · exact absurd h (by simp)
  · rintro ⟨rfl, hdepth⟩
    exact ofText?_text hv hdepth

end Logbook
