import SchemaReader.Text.Case

/-!
# Names in lower case

A text in lower case has no lower case but itself: no run of letters is moved to
where another run begins.  So names that are equal without regard to case stay so
when something is put behind one of them that was in lower case before.
-/

namespace SchemaReader.Text

def capitals : List CaseRun := ⟨65, 90, 1, 32⟩ :: ⟨304, 304, 1, -199⟩ :: lowerRuns

def Lowered (c : Char) : Prop := ∀ run ∈ capitals, run.covers c.toNat = false

instance (c : Char) : Decidable (Lowered c) :=
  decidable_of_iff (capitals.all (!·.covers c.toNat)) (by simp [Lowered])

def CaseRun.isApart (run : CaseRun) (first last stride : Nat) : Bool :=
  Nat.blt last run.first || Nat.blt run.last first ||
    ((stride == 2 || first == last) && run.stride == 2 && (first + run.first) % 2 == 1)

/-- Where the characters of a run go, there is no other run. -/
def CaseRun.settles (run : CaseRun) : Bool :=
  let first := (run.first + run.shift).toNat
  let last := (run.last + run.shift).toNat
  0 < first && capitals.all (·.isApart first last run.stride)

theorem settles_lowerRuns : lowerRuns.all CaseRun.settles := by
  decide +kernel

theorem not_covers_of_isApart {run : CaseRun} {first last stride n : Nat}
    (h : run.isApart first last stride) (hfirst : first ≤ n) (hlast : n ≤ last)
    (hstride : (n - first) % stride = 0) : run.covers n = false := by
  rw [Bool.eq_false_iff]
  intro hcovers
  simp only [CaseRun.covers, Bool.and_eq_true, beq_iff_eq, decide_eq_true_eq] at hcovers
  obtain ⟨⟨hstart, hend⟩, hevery⟩ := hcovers
  simp only [CaseRun.isApart, Bool.or_eq_true, Bool.and_eq_true, beq_iff_eq, Nat.blt_eq] at h
  rcases h with (hbefore | hbehind) | ⟨⟨htwo, hrun⟩, hparity⟩
  · omega
  · omega
  · rw [hrun] at hevery
    rcases htwo with htwo | hone
    · rw [htwo] at hstride
      omega
    · omega

theorem not_covers_of_settles {run : CaseRun} {n : Nat} (h : run.settles) (hn : run.covers n) :
    ∀ other ∈ capitals, other.covers (n + run.shift).toNat = false := by
  intro other hother
  simp only [CaseRun.settles, Bool.and_eq_true, decide_eq_true_eq] at h
  obtain ⟨hpos, hapart⟩ := h
  simp only [CaseRun.covers, Bool.and_eq_true, beq_iff_eq, decide_eq_true_eq] at hn
  obtain ⟨⟨hfirst, hlast⟩, hstride⟩ := hn
  have hmoved : (n + run.shift).toNat - (run.first + run.shift).toNat = n - run.first := by
    omega
  exact not_covers_of_isApart (List.all_eq_true.1 hapart other hother) (by omega) (by omega)
    (by rw [hmoved, hstride])

theorem toNat_ofNat_cases (n : Nat) : (Char.ofNat n).toNat = n ∨ Char.ofNat n = '\x00' := by
  by_cases h : n.isValidChar
  · have hvalid : Char.ofNat n = Char.ofNatAux n h := dif_pos h
    exact .inl (hvalid ▸ rfl)
  · exact .inr (dif_neg h)

theorem lowered_shiftCase {c : Char} (hc : 128 ≤ c.toNat) (hdotted : c.toNat ≠ 304) :
    Lowered (shiftCase lowerRuns c) := by
  unfold shiftCase
  split
  · rename_i run hrun
    have hcovers := List.find?_some hrun
    have hsettles := List.all_eq_true.1 settles_lowerRuns run (List.mem_of_find?_eq_some hrun)
    rcases toNat_ofNat_cases (c.toNat + run.shift).toNat with hvalue | hvalue
    · intro other hother
      rw [hvalue]
      exact not_covers_of_settles hsettles hcovers other hother
    · rw [hvalue]
      decide +kernel
  · rename_i hnone
    have hruns := List.find?_eq_none.1 hnone
    intro run hrun
    rcases List.mem_cons.1 hrun with rfl | hrun
    · simp [CaseRun.covers]
      omega
    · rcases List.mem_cons.1 hrun with rfl | hrun
      · simp [CaseRun.covers]
        omega
      · simpa using hruns run hrun

theorem lowered_ascii {c : Char} (hc : c.toNat < 128) :
    Lowered c ↔ ¬ (65 ≤ c.toNat ∧ c.toNat ≤ 90) := by
  have hbeyond : ∀ run ∈ capitals.tail, 128 ≤ run.first := by decide +kernel
  constructor
  · intro h
    have hletters := h ⟨65, 90, 1, 32⟩ (by simp [capitals])
    simpa [CaseRun.covers, Nat.mod_one] using hletters
  · intro h run hrun
    rcases List.mem_cons.1 hrun with rfl | hrun
    · simpa [CaseRun.covers, Nat.mod_one] using h
    · have hfirst := hbeyond run hrun
      simp [CaseRun.covers]
      omega

theorem toLower_ascii : ∀ n < 128,
    ((Char.ofNat n).toLower.toNat < 128 ∧
      ¬ (65 ≤ (Char.ofNat n).toLower.toNat ∧ (Char.ofNat n).toLower.toNat ≤ 90)) ∧
    (¬ (65 ≤ n ∧ n ≤ 90) → (Char.ofNat n).toLower = Char.ofNat n) := by
  decide +kernel

theorem lowered_of_mem_lowerChar {c d : Char} (h : d ∈ lowerChar c) : Lowered d := by
  unfold lowerChar at h
  split at h
  · rename_i hascii
    obtain rfl := List.mem_singleton.1 h
    obtain ⟨hlower, hplain⟩ := (toLower_ascii c.toNat hascii).1
    rw [Char.ofNat_toNat] at hlower hplain
    exact (lowered_ascii hlower).2 hplain
  · rename_i hascii
    split at h
    · rcases List.mem_cons.1 h with rfl | hdot
      · exact (lowered_ascii (by decide)).2 (by decide)
      · obtain rfl := List.mem_singleton.1 hdot
        decide +kernel
    · rename_i hne
      obtain rfl := List.mem_singleton.1 h
      exact lowered_shiftCase (by omega) hne

theorem lowered_of_mem_lowerAt {inWord : Bool} {c d : Char} {rest : List Char}
    (h : d ∈ lowerAt inWord c rest) : Lowered d := by
  unfold lowerAt at h
  split at h
  · obtain rfl := List.mem_singleton.1 h
    split <;> decide +kernel
  · exact lowered_of_mem_lowerChar h

theorem Lowered.lowerChar_eq {c : Char} (h : Lowered c) : lowerChar c = [c] := by
  unfold lowerChar
  split
  · rename_i hascii
    have hlower := (toLower_ascii c.toNat hascii).2
    rw [Char.ofNat_toNat] at hlower
    rw [hlower ((lowered_ascii hascii).1 h)]
  · split
    · rename_i hdotted
      have hcovered := h ⟨304, 304, 1, -199⟩ (by simp [capitals])
      rw [hdotted] at hcovered
      cases hcovered
    · have hnone : lowerRuns.find? (·.covers c.toNat) = none :=
        List.find?_eq_none.2 fun run hrun => by simp [h run (by simp [capitals, hrun])]
      rw [shiftCase, hnone]

theorem Lowered.ne_capitalSigma {c : Char} (h : Lowered c) : c ≠ capitalSigma := by
  rintro rfl
  have hnot : ¬ Lowered capitalSigma := by decide +kernel
  exact hnot h

-- The tables of letters are too deep for the default.
set_option maxRecDepth 4000 in
theorem lowerFrom_cons (inWord : Bool) (out : List Char) (c : Char) (rest : List Char) :
    lowerFrom inWord out (c :: rest) =
      lowerFrom (if isCaseIgnorable c then inWord else isCased c)
        ((lowerAt inWord c rest).reverseAux out) rest :=
  rfl

theorem lowerFrom_eq_self {text : List Char} (h : ∀ c ∈ text, Lowered c) (inWord : Bool)
    (out : List Char) : lowerFrom inWord out text = out.reverse ++ text := by
  induction text generalizing inWord out with
  | nil => exact (List.append_nil _).symm
  | cons c text ih =>
      have hc := h c (by simp)
      have hstep : lowerAt inWord c text = [c] := by
        rw [lowerAt, if_neg hc.ne_capitalSigma, hc.lowerChar_eq]
      rw [lowerFrom_cons, hstep, ih fun d hd => h d (by simp [hd])]
      simp

theorem lower_eq_self {text : List Char} (h : ∀ c ∈ text, Lowered c) : lower text = text :=
  lowerFrom_eq_self h false []

theorem lowered_of_mem_lowerFrom {inWord : Bool} {out text : List Char}
    (hout : ∀ c ∈ out, Lowered c) : ∀ c ∈ lowerFrom inWord out text, Lowered c := by
  induction text generalizing inWord out with
  | nil => exact fun c hc => hout c (List.mem_reverse.1 hc)
  | cons x text ih =>
      rw [lowerFrom_cons]
      refine ih fun c hc => ?_
      rw [List.reverseAux_eq, List.mem_append, List.mem_reverse] at hc
      rcases hc with hc | hc
      · exact lowered_of_mem_lowerAt hc
      · exact hout c hc

theorem lowered_of_mem_lower {c : Char} {text : List Char} (h : c ∈ lower text) : Lowered c :=
  lowered_of_mem_lowerFrom (by simp) c h

end SchemaReader.Text

namespace SchemaReader

open SchemaReader.Text

theorem lowered_of_mem_lowerName {c : Char} {name : String} (h : c ∈ (lowerName name).toList) :
    Lowered c := by
  rw [lowerName, String.toList_ofList] at h
  exact lowered_of_mem_lower h

theorem lowerName_eq_self {name : String} (h : ∀ c ∈ name.toList, Lowered c) :
    lowerName name = name := by
  rw [lowerName, lower_eq_self h, String.ofList_toList]

end SchemaReader
