import ParallelTests.Proofs.Scan.Stop

namespace ParallelTests.Scan

lemma isNumeral_of_isStop {c : Char} (h : isStop c = true) : isNumeral c = false :=
  not_of_isStop (by decide) h

lemma isHexNumeral_of_isStop {c : Char} (h : isStop c = true) : isHexNumeral c = false :=
  not_of_isStop (by decide) h

lemma isTenMark_of_isStop {c : Char} (h : isStop c = true) : isTenMark c = false :=
  not_of_isStop (by decide) h

lemma isPowerMark_of_isStop {c : Char} (h : isStop c = true) : isPowerMark c = false :=
  not_of_isStop (by decide) h

lemma runLength_of_stops {p : Char → Bool} (hp : ∀ c, isStop c = true → p c = false)
    {w : List Char} (hw : Stops w) : runLength p w = 0 := by
  have h := (runLength_append_iff (p := p) (x := []) (y := w)).2
  exact h ⟨by simp, fun c hc => hp c (hw c hc)⟩

lemma signLength_of_stops {w : List Char} (hw : Stops w) : signLength w = 0 := by
  cases w with
  | nil => rfl
  | cons c w =>
    have hc := hw c (by simp)
    unfold signLength
    split <;> simp_all [isStop, isBlank]

lemma signLength_le (cs : List Char) : signLength cs ≤ 1 := by
  unfold signLength
  split <;> simp

lemma fractionLength_of_stops {digit : Char → Bool} {w : List Char} (hw : Stops w) :
    fractionLength digit w = 0 := by
  cases w with
  | nil => rfl
  | cons c w =>
    have hc := hw c (by simp)
    unfold fractionLength
    split <;> simp_all [isStop, isBlank]

lemma imaginaryLength_of_stops {w : List Char} (hw : Stops w) : imaginaryLength w = 0 := by
  cases w with
  | nil => rfl
  | cons c w =>
    have hc := hw c (by simp)
    unfold imaginaryLength
    split <;> simp_all [isStop, isBlank]

lemma settled_fractionLength {digit : Char → Bool} (hd : ∀ c, isStop c = true → digit c = false) :
    Settled (fractionLength digit) := by
  intro x u v w hw h
  cases x with
  | nil =>
    cases u with
    | nil => exact fractionLength_of_stops hw
    | cons c u =>
      by_cases hc : c = '.'
      · subst hc
        simp [fractionLength] at h
      · simp [fractionLength, hc]
  | cons c x =>
    by_cases hc : c = '.'
    · subst hc
      simp only [List.cons_append, fractionLength, List.length_cons, Nat.add_right_cancel_iff] at *
      exact settled_runLength hd x u v w hw h
    · simp [fractionLength, hc] at h

lemma settled_imaginaryLength : Settled imaginaryLength := by
  intro x u v w hw h
  cases x with
  | nil =>
    cases u with
    | nil => exact imaginaryLength_of_stops hw
    | cons c u =>
      by_cases hc : c = 'i'
      · subst hc
        simp [imaginaryLength] at h
      · simp [imaginaryLength, hc]
  | cons c x =>
    by_cases hc : c = 'i'
    · subst hc
      simpa [imaginaryLength] using h
    · simp [imaginaryLength, hc] at h

lemma signLength_append {u : List Char} (hu : u ≠ []) (v w : List Char) :
    signLength (u ++ v) = signLength (u ++ w) := by
  obtain ⟨c, u, rfl⟩ := List.exists_cons_of_ne_nil hu
  by_cases hp : c = '+'
  · simp [signLength, hp]
  · by_cases hm : c = '-' <;> simp [signLength, hp, hm]

lemma exponentDigits_of_stops {u v w : List Char} (hw : Stops w)
    (h : runLength isNumeral ((u ++ v).drop (signLength (u ++ v))) = 0) :
    runLength isNumeral ((u ++ w).drop (signLength (u ++ w))) = 0 := by
  have hn : ∀ c, isStop c = true → isNumeral c = false := fun c => isNumeral_of_isStop
  by_cases hu : u = []
  · subst hu
    rw [List.nil_append, signLength_of_stops hw]
    exact runLength_of_stops hn hw
  · have hs := signLength_append hu v w
    have hl : signLength (u ++ w) ≤ u.length :=
      Nat.le_trans (signLength_le _) (List.length_pos_iff.2 hu)
    rw [hs, List.drop_append_of_le_length hl] at h
    rw [List.drop_append_of_le_length hl]
    exact settled_runLength hn [] _ v w hw h

lemma settled_exponentLength {mark : Char → Bool} (hm : ∀ c, isStop c = true → mark c = false) :
    Settled (exponentLength mark) := by
  intro x u v w hw h
  cases x with
  | nil =>
    cases u with
    | nil =>
      cases w with
      | nil => rfl
      | cons c w => simp [exponentLength, hm c (hw c (by simp))]
    | cons c u =>
      simp only [List.nil_append, List.cons_append, exponentLength, List.length_nil] at h ⊢
      by_cases hc : mark c = true
      · have h₀ : runLength isNumeral ((u ++ v).drop (signLength (u ++ v))) = 0 := by
          by_contra hne
          rw [if_pos (by simp [hc]; omega)] at h
          omega
        simp [exponentDigits_of_stops hw h₀]
      · simp [hc]
  | cons c x =>
    simp only [List.cons_append, exponentLength, List.length_cons] at h ⊢
    split at h
    · next hd =>
      simp only [Bool.and_eq_true, decide_eq_true_eq] at hd
      have hx : x ≠ [] := by
        rintro rfl
        rw [List.length_nil] at h
        omega
      have hs := signLength_append hx (u ++ v) (u ++ w)
      have hl : signLength (x ++ (u ++ w)) ≤ x.length :=
        Nat.le_trans (signLength_le _) (List.length_pos_iff.2 hx)
      rw [hs, List.drop_append_of_le_length hl] at h hd
      have hr := settled_runLength (p := isNumeral) (fun c => isNumeral_of_isStop)
        (x.drop (signLength (x ++ (u ++ w)))) u v w hw (by simp; omega)
      rw [List.drop_append_of_le_length hl, hr, if_pos]
      · simp
        omega
      · simp [hd.1]
        simp at hr
        omega
    · omega

lemma settled_tailLength {digit mark : Char → Bool} (hd : ∀ c, isStop c = true → digit c = false)
    (hm : ∀ c, isStop c = true → mark c = false) : Settled (tailLength digit mark) :=
  (((settled_runLength hd).then (settled_fractionLength hd)).then (settled_exponentLength hm)).then
    settled_imaginaryLength

lemma settled_decimalTail : Settled (tailLength isNumeral isTenMark) :=
  settled_tailLength (fun _ => isNumeral_of_isStop) (fun _ => isTenMark_of_isStop)

lemma settled_pointTailLength : Settled pointTailLength :=
  ((settled_runLength fun _ => isNumeral_of_isStop).then
    (settled_exponentLength fun _ => isTenMark_of_isStop)).then settled_imaginaryLength

lemma basedLength_eq_none {cs : List Char} : basedLength cs = none ↔ runLength isNumeral cs = 0 := by
  simp [basedLength]

lemma basedLength_none_of_stops {u v w : List Char} (hw : Stops w)
    (h : basedLength (u ++ v) = none) : basedLength (u ++ w) = none := by
  rw [basedLength_eq_none] at *
  exact settled_runLength (fun _ => isNumeral_of_isStop) [] u v w hw h

lemma runLength_cons_pos {p : Char → Bool} {c : Char} {cs : List Char} :
    0 < runLength p (c :: cs) ↔ p c = true := by
  cases h : p c <;> simp [runLength, h]

lemma basedLength_some_of_stops {x u v w : List Char} (hw : Stops w)
    (h : basedLength (x ++ (u ++ v)) = some x.length) :
    basedLength (x ++ (u ++ w)) = some x.length := by
  have hs := (settled_runLength (fun c => isNumeral_of_isStop (c := c))).then settled_imaginaryLength
  simp only [basedLength] at h ⊢
  split at h
  · next hd =>
    have hx := hs x u v w hw (by simpa using h)
    cases x with
    | nil =>
      rw [List.length_nil, Option.some.injEq] at h
      omega
    | cons c x =>
      rw [List.cons_append, runLength_cons_pos] at hd
      rw [List.cons_append, if_pos (runLength_cons_pos.2 hd)]
      exact congrArg some hx
  · simp at h

lemma settled_numberLength (c : Char) : Settled (numberLength c) := by
  intro x u v w hw h
  by_cases hp : c = '.'
  · simp only [numberLength, hp, if_true] at h ⊢
    exact settled_pointTailLength x u v w hw h
  · simp only [numberLength, hp, if_false] at h ⊢
    cases x with
    | nil =>
      cases u with
      | nil =>
        cases w with
        | nil => rfl
        | cons d w =>
          have hd := hw d (by simp)
          have hx : ¬(d = 'x' ∨ d = 'X') := by
            have := not_of_isStop (p := fun d => d = 'x' || d = 'X') (by decide) hd
            simpa using this
          have hb : ¬(d = 'b' ∨ d = 'B' ∨ d = 'o' ∨ d = 'O') := by
            have := not_of_isStop (p := fun d => d = 'b' || d = 'B' || d = 'o' || d = 'O')
              (by decide) hd
            simpa [and_assoc] using this
          have ht := settled_decimalTail [] [] [] (d :: w) hw rfl
          simp only [List.nil_append, List.length_nil] at ht ⊢
          simp [hx, hb, or_assoc, ht]
      | cons d u =>
        simp only [List.nil_append, List.cons_append, List.length_nil] at h ⊢
        split at h
        · omega
        · next hx =>
          rw [if_neg hx]
          split at h
          · next hb =>
            rw [if_pos hb]
            cases hn : basedLength (u ++ v) with
            | some n => simp [hn] at h
            | none =>
              simp only [hn] at h
              rw [basedLength_none_of_stops hw hn]
              exact settled_decimalTail [] (d :: u) v w hw h
          · next hb =>
            rw [if_neg hb]
            exact settled_decimalTail [] (d :: u) v w hw h
    | cons d x =>
      simp only [List.cons_append, List.length_cons] at h ⊢
      split at h
      · next hx =>
        rw [if_pos hx]
        have := settled_tailLength (fun _ => isHexNumeral_of_isStop)
          (fun _ => isPowerMark_of_isStop) x u v w hw (by omega)
        omega
      · next hx =>
        rw [if_neg hx]
        split at h
        · next hb =>
          rw [if_pos hb]
          cases hn : basedLength (x ++ (u ++ v)) with
          | some n =>
            have hl : n = x.length := by
              simp only [hn] at h
              omega
            rw [basedLength_some_of_stops hw (hl ▸ hn)]
          | none =>
            simp only [hn] at h
            rw [← List.append_assoc] at hn
            have hn' := basedLength_none_of_stops hw hn
            rw [List.append_assoc] at hn'
            rw [hn']
            exact settled_decimalTail (d :: x) u v w hw h
        · next hb =>
          rw [if_neg hb]
          exact settled_decimalTail (d :: x) u v w hw h

end ParallelTests.Scan
