import Ether2Ser.Bits.Bytes

namespace Bits

/-- Insert a zero after every run of `limit` ones. The first argument is the
run of ones that precedes the bits still to be sent. -/
def stuff (limit : Nat) : Nat → List Bool → List Bool
  | _, [] => []
  | _, false :: bits => false :: stuff limit 0 bits
  | run, true :: bits =>
    if run + 1 = limit then true :: false :: stuff limit 0 bits else true :: stuff limit (run + 1) bits

/-- The number of zeros that stuffing inserts. -/
def stuffCount (limit : Nat) : Nat → List Bool → Nat
  | _, [] => 0
  | _, false :: bits => stuffCount limit 0 bits
  | run, true :: bits => if run + 1 = limit then stuffCount limit 0 bits + 1 else stuffCount limit (run + 1) bits

/-- The run of ones that stands at the end of a stuffed bit string. -/
def stuffRun (limit : Nat) : Nat → List Bool → Nat
  | run, [] => run
  | _, false :: bits => stuffRun limit 0 bits
  | run, true :: bits => if run + 1 = limit then stuffRun limit 0 bits else stuffRun limit (run + 1) bits

/-- Delete the bit after every run of `limit` ones. The bits before the first
violation come with the information whether there was one: a deleted bit that
is a one. -/
def destuff (limit : Nat) : Nat → List Bool → List Bool × Bool
  | _, [] => ([], false)
  | run, bit :: bits =>
    if run = limit then
      if bit then ([], true) else destuff limit 0 bits
    else
      (bit :: (destuff limit (if bit then run + 1 else 0) bits).1,
        (destuff limit (if bit then run + 1 else 0) bits).2)

/-- Delete the bit after every run of `limit` ones, whatever it is. -/
def dropStuffed (limit : Nat) : Nat → List Bool → List Bool
  | _, [] => []
  | run, bit :: bits =>
    if run = limit then dropStuffed limit 0 bits else bit :: dropStuffed limit (if bit then run + 1 else 0) bits

/-- `pattern` occurs in `l` at position `i`. -/
def OccursAt {α : Type} (pattern : List α) (i : Nat) (l : List α) : Prop := pattern <+: l.drop i

instance {α : Type} [DecidableEq α] (pattern : List α) (i : Nat) (l : List α) :
    Decidable (OccursAt pattern i l) := inferInstanceAs (Decidable (_ <+: _))

/-- `n` consecutive ones stand at position `i`. -/
def OnesAt (n i : Nat) (l : List Bool) : Prop := OccursAt (List.replicate n true) i l

theorem occursAt_iff {α : Type} {pattern l : List α} {i : Nat} :
    OccursAt pattern i l ↔ ∀ j (hj : j < pattern.length), l[i + j]? = some pattern[j] := by
  simp [OccursAt, List.prefix_iff_getElem?]

theorem occursAt_length_add {α : Type} {pattern : List α} (a b : List α) (i : Nat) :
    OccursAt pattern (a.length + i) (a ++ b) ↔ OccursAt pattern i b := by
  rw [OccursAt, List.drop_append, List.drop_eq_nil_of_le (by omega), Nat.add_sub_cancel_left, List.nil_append, OccursAt]

theorem occursAt_zero_append {α : Type} (pattern l : List α) : OccursAt pattern 0 (pattern ++ l) :=
  List.prefix_append pattern l

theorem OccursAt.append_right {α : Type} {pattern a : List α} {i : Nat} (h : OccursAt pattern i a) (b : List α) :
    OccursAt pattern i (a ++ b) := by
  rw [occursAt_iff] at h ⊢
  intro j hj
  have hbit := h j hj
  obtain ⟨hlt, -⟩ := List.getElem?_eq_some_iff.mp hbit
  rw [List.getElem?_append_left hlt, hbit]

theorem OccursAt.of_append {α : Type} {pattern a b : List α} {i : Nat} (h : OccursAt pattern i (a ++ b))
    (hinside : i + pattern.length ≤ a.length) : OccursAt pattern i a := by
  rw [occursAt_iff] at h ⊢
  intro j hj
  rw [← h j hj, List.getElem?_append_left (by omega)]

theorem onesAt_iff {n i : Nat} {l : List Bool} : OnesAt n i l ↔ ∀ j < n, l[i + j]? = some true := by
  simp [OnesAt, occursAt_iff]

theorem OnesAt.add_le_length {n i : Nat} {l : List Bool} (hn : 0 < n) (h : OnesAt n i l) : i + n ≤ l.length := by
  have hlast := onesAt_iff.mp h (n - 1) (by omega)
  obtain ⟨hlt, -⟩ := List.getElem?_eq_some_iff.mp hlast
  omega

/-- A run of ones cannot cross a zero. -/
theorem onesAt_append_false {n i : Nat} {a b : List Bool} (hn : 0 < n) :
    OnesAt n i (a ++ false :: b) ↔ OnesAt n i a ∨ (a.length < i ∧ OnesAt n (i - (a.length + 1)) b) := by
  have hzero : (a ++ false :: b)[a.length]? = some false := by simp
  have hleft : ∀ k < a.length, (a ++ false :: b)[k]? = a[k]? := fun k hk => List.getElem?_append_left hk
  have hright : ∀ k, a.length < k → (a ++ false :: b)[k]? = b[k - (a.length + 1)]? := by
    intro k hk
    rw [List.getElem?_append_right (by omega), show k - a.length = k - (a.length + 1) + 1 by omega]
    rfl
  constructor
  · intro h
    rw [onesAt_iff] at h
    have hout : i + n ≤ a.length ∨ a.length < i := by
      by_contra hin
      have hone := h (a.length - i) (by omega)
      rw [show i + (a.length - i) = a.length by omega, hzero] at hone
      cases hone
    obtain hend | hstart := hout
    · left
      rw [onesAt_iff]
      intro j hj
      rw [← hleft (i + j) (by omega)]
      exact h j hj
    · right
      refine ⟨hstart, ?_⟩
      rw [onesAt_iff]
      intro j hj
      have hone := h j hj
      rw [hright (i + j) (by omega)] at hone
      rwa [show i - (a.length + 1) + j = i + j - (a.length + 1) by omega]
  · rintro (h | ⟨hstart, h⟩)
    · have hend := h.add_le_length hn
      rw [onesAt_iff] at h ⊢
      intro j hj
      rw [hleft (i + j) (by omega)]
      exact h j hj
    · rw [onesAt_iff] at h ⊢
      intro j hj
      rw [hright (i + j) (by omega), show i + j - (a.length + 1) = i - (a.length + 1) + j by omega]
      exact h j hj

/-- Leading zeros only shift the runs of ones. -/
theorem onesAt_replicate_false_append {n i zeros : Nat} {l : List Bool} (hn : 0 < n) :
    OnesAt n i (List.replicate zeros false ++ l) ↔ zeros ≤ i ∧ OnesAt n (i - zeros) l := by
  induction zeros generalizing i with
  | zero => simp
  | succ zeros ih =>
    have hnil : ¬ OnesAt n i [] := fun h => by
      have := h.add_le_length hn
      simp only [List.length_nil] at this
      omega
    have hsplit := onesAt_append_false (i := i) (a := []) (b := List.replicate zeros false ++ l) hn
    rw [List.replicate_succ, List.cons_append]
    simp only [List.nil_append, hnil, false_or, List.length_nil, Nat.zero_add, ih] at hsplit
    rw [hsplit, Nat.sub_sub, Nat.add_comm 1 zeros]
    constructor
    · rintro ⟨hpos, hle, h⟩
      exact ⟨by omega, h⟩
    · rintro ⟨hle, h⟩
      exact ⟨by omega, by omega, h⟩

theorem onesAt_replicate_true {n i : Nat} (hn : 0 < n) : OnesAt n i (List.replicate n true) ↔ i = 0 := by
  constructor
  · intro h
    have := h.add_le_length hn
    simp only [List.length_replicate] at this
    omega
  · rintro rfl
    simp [OnesAt, OccursAt]

theorem not_onesAt_of_length_lt {n i : Nat} {l : List Bool} (h : l.length < n) : ¬ OnesAt n i l := by
  intro hones
  have := hones.add_le_length (by omega)
  omega

theorem stuffRun_append (limit run : Nat) (as bs : List Bool) :
    stuffRun limit run (as ++ bs) = stuffRun limit (stuffRun limit run as) bs := by
  induction as generalizing run with
  | nil => rfl
  | cons a as ih =>
    cases a with
    | false => simp [stuffRun, ih]
    | true => by_cases hfull : run + 1 = limit <;> simp [stuffRun, hfull, ih]

theorem stuff_append (limit run : Nat) (as bs : List Bool) :
    stuff limit run (as ++ bs) = stuff limit run as ++ stuff limit (stuffRun limit run as) bs := by
  induction as generalizing run with
  | nil => rfl
  | cons a as ih =>
    cases a with
    | false => simp [stuff, stuffRun, ih]
    | true => by_cases hfull : run + 1 = limit <;> simp [stuff, stuffRun, hfull, ih]

theorem stuff_cons (limit run : Nat) (b : Bool) (bits : List Bool) :
    stuff limit run (b :: bits) = stuff limit run [b] ++ stuff limit (stuffRun limit run [b]) bits :=
  stuff_append limit run [b] bits

theorem stuffRun_cons (limit run : Nat) (b : Bool) (bits : List Bool) :
    stuffRun limit run (b :: bits) = stuffRun limit (stuffRun limit run [b]) bits :=
  stuffRun_append limit run [b] bits

theorem stuffRun_lt {limit run : Nat} (bits : List Bool) (hrun : run < limit) : stuffRun limit run bits < limit := by
  induction bits generalizing run with
  | nil => exact hrun
  | cons bit bits ih =>
    cases bit with
    | false => exact ih (by omega)
    | true =>
      rw [stuffRun]
      split
      · exact ih (by omega)
      · exact ih (by omega)

theorem replicate_true_append_cons (run : Nat) (bits : List Bool) :
    List.replicate run true ++ true :: bits = List.replicate (run + 1) true ++ bits := by
  simp [List.replicate_succ']

/-- Stuffing leaves no run of more than `limit` ones, the ones sent before
included. -/
theorem not_onesAt_stuff {limit run : Nat} (bits : List Bool) (hrun : run < limit) (i : Nat) :
    ¬ OnesAt (limit + 1) i (List.replicate run true ++ stuff limit run bits) := by
  induction bits generalizing run i with
  | nil => exact not_onesAt_of_length_lt (by simp [stuff]; omega)
  | cons bit bits ih =>
    have hzero : ∀ run' ≤ limit, ¬ OnesAt (limit + 1) i (List.replicate run' true ++ false :: stuff limit 0 bits) := by
      intro run' hle
      rw [onesAt_append_false (by omega)]
      rintro (h | ⟨-, h⟩)
      · exact not_onesAt_of_length_lt (by simp; omega) h
      · exact @ih 0 (by omega) _ (by simpa using h)
    cases bit with
    | false => exact hzero run (by omega)
    | true =>
      rw [stuff]
      split
      · rw [replicate_true_append_cons]
        exact hzero (run + 1) (by omega)
      · rw [replicate_true_append_cons]
        exact ih (by omega) i

/-- Deleting stuffed bits inverts stuffing and continues behind it. -/
theorem destuff_stuff_append {limit run : Nat} (bits tail : List Bool) (hrun : run < limit) :
    destuff limit run (stuff limit run bits ++ tail) =
      (bits ++ (destuff limit (stuffRun limit run bits) tail).1, (destuff limit (stuffRun limit run bits) tail).2) := by
  induction bits generalizing run with
  | nil => simp [stuff, stuffRun]
  | cons bit bits ih =>
    have hne : run ≠ limit := by omega
    cases bit with
    | false => simp [stuff, stuffRun, destuff, hne, @ih 0 (by omega)]
    | true =>
      by_cases hfull : run + 1 = limit
      · simp [stuff, stuffRun, destuff, hne, hfull, @ih 0 (by omega)]
      · simp [stuff, stuffRun, destuff, hne, hfull, @ih (run + 1) (by omega)]

/-- A violation is a run of more than `limit` ones, the ones read before
included. -/
theorem destuff_bad_iff {limit run : Nat} (bits : List Bool) (hrun : run ≤ limit) :
    (destuff limit run bits).2 = true ↔ ∃ i, OnesAt (limit + 1) i (List.replicate run true ++ bits) := by
  induction bits generalizing run with
  | nil =>
    constructor
    · intro hbad
      cases hbad
    · rintro ⟨i, h⟩
      exact absurd h (not_onesAt_of_length_lt (by simp; omega))
  | cons bit bits ih =>
    have hzero : ∀ r ≤ limit, (∃ i, OnesAt (limit + 1) i (List.replicate r true ++ false :: bits)) ↔
        ∃ i, OnesAt (limit + 1) i bits := by
      intro r hr
      have hshort : ∀ i, ¬ OnesAt (limit + 1) i (List.replicate r true) :=
        fun i => not_onesAt_of_length_lt (by simp; omega)
      constructor
      · rintro ⟨i, h⟩
        rw [onesAt_append_false (Nat.succ_pos _)] at h
        obtain h | ⟨-, h⟩ := h
        · exact absurd h (hshort i)
        · exact ⟨_, h⟩
      · rintro ⟨i, h⟩
        refine ⟨r + 1 + i, (onesAt_append_false (Nat.succ_pos _)).mpr (.inr ⟨?_, ?_⟩)⟩
        · rw [List.length_replicate]
          omega
        · rwa [List.length_replicate, Nat.add_sub_cancel_left]
    have hfresh := ih (Nat.zero_le limit)
    simp only [List.replicate_zero, List.nil_append] at hfresh
    rw [destuff]
    cases bit with
    | false =>
      rw [hzero run hrun, ← hfresh]
      split <;> simp
    | true =>
      rw [replicate_true_append_cons]
      split
      · rename_i hfull
        subst hfull
        simp only [if_true, true_iff]
        exact ⟨0, occursAt_zero_append _ _⟩
      · rename_i hshort
        exact ih (Nat.lt_of_le_of_ne hrun hshort)

/-- Without a violation exactly the stuffed bits are deleted. -/
theorem destuff_fst {limit run : Nat} {bits : List Bool} (hgood : (destuff limit run bits).2 = false) :
    (destuff limit run bits).1 = dropStuffed limit run bits := by
  induction bits generalizing run with
  | nil => rfl
  | cons bit bits ih =>
    by_cases hfull : run = limit
    · cases bit with
      | false =>
        simp only [destuff, dropStuffed, hfull, if_true, Bool.false_eq_true, if_false] at hgood ⊢
        exact ih hgood
      | true =>
        simp only [destuff, hfull, if_true] at hgood
        cases hgood
    · simp only [destuff, dropStuffed, hfull, if_false] at hgood ⊢
      exact congrArg (bit :: ·) (ih hgood)

theorem destuff_replicate_false {limit run : Nat} (hrun : run < limit) (n : Nat) :
    destuff limit run (List.replicate n false) = (List.replicate n false, false) := by
  induction n generalizing run with
  | zero => rfl
  | succ n ih => simp [List.replicate_succ, destuff, Nat.ne_of_lt hrun, @ih 0 (by omega)]

theorem length_stuff (limit run : Nat) (bits : List Bool) :
    (stuff limit run bits).length = bits.length + stuffCount limit run bits := by
  induction bits generalizing run with
  | nil => rfl
  | cons bit bits ih =>
    cases bit with
    | false =>
      rw [stuff, stuffCount, List.length_cons, List.length_cons, ih]
      omega
    | true =>
      rw [stuff, stuffCount]
      split
      · rw [List.length_cons, List.length_cons, List.length_cons, ih]
        omega
      · rw [List.length_cons, List.length_cons, ih]
        omega

theorem length_le_length_stuff (limit run : Nat) (bits : List Bool) : bits.length ≤ (stuff limit run bits).length := by
  rw [length_stuff]
  exact Nat.le_add_right _ _

/-- Every stuffed zero is paid for by `limit` ones. -/
theorem length_stuff_le {limit run : Nat} (bits : List Bool) (hrun : run < limit) :
    limit * (stuff limit run bits).length ≤ (limit + 1) * bits.length + run := by
  induction bits generalizing run with
  | nil => simp [stuff]
  | cons bit bits ih =>
    have hzero := @ih 0 (by omega)
    cases bit with
    | false =>
      simp only [stuff, List.length_cons, Nat.mul_add, Nat.add_mul] at hzero ⊢
      omega
    | true =>
      by_cases hfull : run + 1 = limit
      · simp only [stuff, hfull, if_true, List.length_cons, Nat.mul_add, Nat.add_mul] at hzero ⊢
        omega
      · have hnext := @ih (run + 1) (by omega)
        simp only [stuff, hfull, if_false, List.length_cons, Nat.mul_add, Nat.add_mul] at hnext ⊢
        omega

end Bits
